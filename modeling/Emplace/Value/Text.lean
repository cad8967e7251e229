import Emplace.Number.Whole
import Emplace.Text.Pieces
import Emplace.Text.Quoted
import Emplace.Value

/-!
Values as text. A text stands for itself; inside a container it is quoted. Containers are written
with their brackets, times as calendar date and clock. A container is not written again inside
itself: dots stand for it.
-/
namespace Emplace.Value

def wide (width n : Nat) : String :=
  String.ofList (Text.padded width n)

def dateText (d : Date) : String :=
  wide 4 d.year ++ "-" ++ wide 2 d.month ++ "-" ++ wide 2 d.day

def offsetText (minutes : Int) : String :=
  let size := minutes.natAbs
  (if minutes < 0 then "-" else "+") ++ wide 2 (size / 60) ++ ":" ++ wide 2 (size % 60)

def momentText (m : Moment) : String :=
  dateText m.date ++ " " ++ wide 2 m.hour ++ ":" ++ wide 2 m.minute ++ ":" ++ wide 2 m.second
    ++ (if m.microsecond = 0 then "" else "." ++ wide 6 m.microsecond)
    ++ (match m.offset with
      | none => ""
      | some minutes => offsetText minutes)

/-- The time zone as a constructor call: a whole number of days and the seconds beyond them. -/
def zoneCall (minutes : Int) : String :=
  if minutes = 0 then "datetime.timezone.utc"
  else
    let days := minutes.fdiv 1440
    let seconds := minutes.fmod 1440 * 60
    let parts := (if days = 0 then [] else ["days=" ++ Text.integer days])
      ++ (if seconds = 0 then [] else ["seconds=" ++ Text.integer seconds])
    "datetime.timezone(datetime.timedelta(" ++ Text.join ", " parts ++ "))"

def dateCall (d : Date) : String :=
  "datetime.date(" ++ Text.join ", " ([d.year, d.month, d.day].map Text.natural) ++ ")"

def momentCall (m : Moment) : String :=
  let clock :=
    if m.microsecond ≠ 0 then [m.hour, m.minute, m.second, m.microsecond]
    else if m.second ≠ 0 then [m.hour, m.minute, m.second]
    else [m.hour, m.minute]
  let parts := ([m.date.year, m.date.month, m.date.day] ++ clock).map Text.natural
  let zone := match m.offset with
    | none => []
    | some minutes => ["tzinfo=" ++ zoneCall minutes]
  "datetime.datetime(" ++ Text.join ", " (parts ++ zone) ++ ")"

/-- The containers that may lie inside each other in a value that is written. -/
def shownDepth : Nat := 985

def dots : Value → String
  | list _ => "[...]"
  | set _ => "set(...)"
  | map _ => "\x7b...\x7d"
  | _ => "..."

/-- A whole number as text, where it has no more digits than any may have. -/
def integerText (i : Int) : Except Fault String :=
  if Number.tenTo Number.digitLimit ≤ i.natAbs then .error Number.tooManyDigitsWritten
  else .ok (Text.integer i)

def enclosed (left right : String) (parts : List String) : String :=
  left ++ Text.join ", " parts ++ right

mutual

/-- A value as it is written inside a container. The labels of the containers that are being written
come with the dots that stand for them. -/
def shown (depth : Nat) (around : List (Nat × String)) (value : Value) : Except Fault String :=
  match depth, value with
  | _, null => .ok "None"
  | _, bool b => .ok (if b then "True" else "False")
  | _, int i => integerText i
  | _, float x => .ok x.text
  | _, nan _ => .ok "nan"
  | _, text s => .ok (Text.quoted s)
  | _, broken letters => .ok (Text.quotedLetters letters)
  | _, bytes content => .ok (Text.quotedBytes content)
  | _, date d => .ok (dateCall d)
  | _, moment m => .ok (momentCall m)
  | _, back label => .ok ((around.lookup label).getD "...")
  | depth, knot label content =>
    match around.lookup label with
    | some dots => .ok dots
    | none => shown depth ((label, content.dots) :: around) content
  | 0, _ => .error .tooDeep
  | depth + 1, list items => (shownItems depth around items).map (enclosed "[" "]")
  | depth + 1, pair first second =>
    match shown depth around first, shown depth around second with
    | .ok first, .ok second => .ok (enclosed "(" ")" [first, second])
    | .error fault, _ => .error fault
    | _, .error fault => .error fault
  | depth + 1, set items =>
    if items.isEmpty then .ok "set()"
    else (shownItems depth around items).map (enclosed "\x7b" "\x7d")
  | depth + 1, map entries =>
    (shownEntries depth around entries).map (enclosed "\x7b" "\x7d")

def shownItems (depth : Nat) (around : List (Nat × String)) :
    List Value → Except Fault (List String)
  | [] => .ok []
  | item :: rest =>
    match shown depth around item with
    | .error fault => .error fault
    | .ok first => (shownItems depth around rest).map (first :: ·)

def shownEntries (depth : Nat) (around : List (Nat × String)) :
    Entries → Except Fault (List String)
  | [] => .ok []
  | (key, value) :: rest =>
    match shown depth around key, shown depth around value with
    | .ok key, .ok value =>
      (shownEntries depth around rest).map ((key ++ ": " ++ value) :: ·)
    | .error fault, _ => .error fault
    | _, .error fault => .error fault

end

def display : Value → Except Fault String
  | text s => .ok s
  | broken _ => .error .brokenText
  | date d => .ok (dateText d)
  | moment m => .ok (momentText m)
  | value => shown shownDepth [] value

end Emplace.Value
