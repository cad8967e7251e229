import Emplace.Shell.Tool.Editing.Script

/-!
Replacements in a line: what an expression stands for gives way to parts of it and other text.
-/
namespace Emplace.Shell.Tool.Editing

def turned : Turn → Option Turn → List Char → List Char
  | _, _, [] => []
  | turn, once, c :: rest =>
    (match once.getD turn with
      | .upper => c.toUpper
      | .upperOnce => c.toUpper
      | .lower => c.toLower
      | .lowerOnce => c.toLower
      | .none => c) :: turned turn none rest

def filled (found : Regex.Found) : Turn → Option Turn → List Part → List Char
  | _, _, [] => []
  | turn, once, .turn new :: rest =>
    if new = .upperOnce ∨ new = .lowerOnce then filled found turn (some new) rest
    else filled found new once rest
  | turn, once, .char c :: rest => turned turn once [c] ++ filled found turn none rest
  | turn, once, .group n :: rest =>
    let text := if n = 0 then found.text else (found.spot.groups.lookup n).getD []
    turned turn once text ++ filled found turn (if text.isEmpty then once else none) rest

/-- Replaces what an expression stands for: the find of a number, or all from there on. -/
def substituted (regex : Regex) (what : Substitution) :
    Nat → Nat → Bool → List Char → List Char → List Char × Bool
  | 0, _, _, _, after => (after, false)
  | fuel + 1, nth, touching, before, after =>
    match Regex.find? what.fold regex (Regex.depth after) [] before after with
    | none => (after, false)
    | some found =>
      -- Right behind a find, another one cannot be empty.
      if found.text.isEmpty ∧ found.before.isEmpty ∧ touching then
        match after with
        | [] => ([], false)
        | c :: rest =>
          let (others, more) := substituted regex what fuel nth false (c :: before) rest
          (c :: others, more)
      else
        let here := nth ≤ 1
        let start := found.before ++ if here then filled found .none none what.parts else found.text
        if here ∧ !what.all then (start ++ found.spot.after, true)
        else if found.text.isEmpty then
          match found.spot.after with
          | [] => (start, here)
          | c :: rest =>
            let (others, more) :=
              substituted regex what fuel (nth - 1) false (c :: found.spot.before) rest
            (start ++ c :: others, here || more)
        else
          let (others, more) :=
            substituted regex what fuel (nth - 1) true found.spot.before found.spot.after
          (start ++ others, here || more)

end Emplace.Shell.Tool.Editing
