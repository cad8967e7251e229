import Emplace.Invocation
import Emplace.Proofs.Text.Ends

/-!
The command line of the compiler. Its parts stand in one order with nothing left out, the directory
that the generator writes to can be read off it, and the two names of the generator fit each other.
-/
namespace Emplace

namespace Invocation

open Text

/-! ### The two names of a generator -/

/-- The beginning of a program's name, up to its last sign. -/
theorem programStart_eq : programStart = "protoc-gen" ++ String.singleton '-' := rfl

theorem dropTail_programStart (rest : String) :
    dropTail (programStart ++ rest) programTail = programStart ++ dropTail rest programTail := by
  rw [programStart_eq]
  exact dropTail_behind (by decide) _ _

variable {plugin name : String}

theorem pluginName_of_lastPart (last : LastPart '/' plugin name) :
    pluginName plugin = dropTail (dropStart name programStart) programTail := by
  rw [pluginName, afterLast_of_lastPart last]

theorem programName_of_lastPart (last : LastPart '/' plugin name) :
    programName plugin = dropTail name programTail := by
  rw [programName, afterLast_of_lastPart last]

/-- A program with the usual beginning answers to what follows it. -/
theorem programName_of_start {rest : String} (last : LastPart '/' plugin (programStart ++ rest)) :
    programName plugin = programStart ++ pluginName plugin := by
  rw [programName_of_lastPart last, pluginName_of_lastPart last, dropStart_append,
    dropTail_programStart]

/-- Any other program answers to its own name. -/
theorem programName_of_other (last : LastPart '/' plugin name)
    (other : ¬ ∃ rest, name = programStart ++ rest) : programName plugin = pluginName plugin := by
  have plain : ¬ startsWith name programStart = true := mt (startsWith_iff _ _).mp other
  rw [programName_of_lastPart last, pluginName_of_lastPart last, dropStart, if_neg plain]

theorem lastPart_below {directory : String}
    (whole : directory = "" ∨ ∃ above, directory = above ++ "/") (clean : '/' ∉ name.toList) :
    LastPart '/' (directory ++ name) name := by
  refine ⟨clean, ?_⟩
  rcases whole with rfl | ⟨above, rfl⟩
  · exact Or.inl (String.empty_append)
  · exact Or.inr ⟨above, rfl⟩

theorem slash_not_mem_start (clean : '/' ∉ name.toList) : '/' ∉ (programStart ++ name).toList := by
  have start : '/' ∉ programStart.toList := by decide
  simp [start, clean]

/-- Wherever a program lies, the generator's name is read back from the usual name of its program. -/
theorem pluginName_plain {directory : String}
    (whole : directory = "" ∨ ∃ above, directory = above ++ "/") (clean : '/' ∉ name.toList)
    (plain : ¬ ∃ front, name = front ++ programTail) :
    pluginName (directory ++ (programStart ++ name)) = name := by
  have noTail : ¬ endsWith name programTail = true := mt (endsWith_iff _ _).mp plain
  have last := lastPart_below whole (slash_not_mem_start clean)
  rw [pluginName_of_lastPart last, dropStart_append, dropTail, if_neg noTail]

theorem pluginName_with_tail {directory : String}
    (whole : directory = "" ∨ ∃ above, directory = above ++ "/") (clean : '/' ∉ name.toList) :
    pluginName (directory ++ (programStart ++ (name ++ programTail))) = name := by
  have tail : '/' ∉ programTail.toList := by decide
  have body : '/' ∉ (name ++ programTail).toList := by simp [tail, clean]
  have last := lastPart_below whole (slash_not_mem_start body)
  rw [pluginName_of_lastPart last, dropStart_append, dropTail_append]

/-! ### The whole line -/

theorem descriptorArguments_eq (sets : List String) : descriptorArguments sets =
    if sets = [] then [] else ["--descriptor_set_in", ":".intercalate sets] := by
  cases sets with
  | nil => rfl
  | cons set rest => simp [descriptorArguments, join_eq_intercalate]

/-- A directory without a colon is what follows the last colon of the argument that names it. -/
theorem lastPart_outArgument {call : Invocation} (clean : ':' ∉ call.scratch.toList)
    (text : String) : LastPart ':' call.outArgument text ↔ text = call.scratch := by
  have last : LastPart ':' call.outArgument call.scratch := ⟨clean, Or.inr ⟨_, rfl⟩⟩
  rw [← afterLast_eq_iff, afterLast_of_lastPart last]
  exact eq_comm

/-- The command line part by part, on both platforms the same but for the path of the program. Its
argument for the generator's output ends in the directory for it, behind the last colon where the
directory has none; the name of the program is the generator's behind the usual beginning, or the
same where the program is named otherwise; and the usual names give any generator's name back. -/
theorem arguments_parts (call : Invocation) (cwd : String) :
    let out := "--" ++ pluginName call.plugin ++ "_out="
      ++ ",".intercalate (call.options ++ call.imports.map fun item => "M" ++ item)
      ++ ":" ++ call.scratch
    let line := fun path => call.leading
      ++ [out, "--plugin", programName call.plugin ++ "=" ++ path]
      ++ (if call.descriptorSets = [] then []
        else ["--descriptor_set_in", ":".intercalate call.descriptorSets])
      ++ call.includes.map (fun directory => "-I" ++ directory)
      ++ call.sources
    call.arguments .other cwd = line call.plugin ∧
    call.arguments .win32 cwd = line (Path.usable .win32 cwd call.plugin) ∧
    (':' ∉ call.scratch.toList → ∀ text, LastPart ':' out text ↔ text = call.scratch) ∧
    (∃ name, LastPart '/' call.plugin name ∧
      ((∃ rest, name = "protoc-gen-" ++ rest) →
        programName call.plugin = "protoc-gen-" ++ pluginName call.plugin) ∧
      ((¬ ∃ rest, name = "protoc-gen-" ++ rest) →
        programName call.plugin = pluginName call.plugin)) ∧
    ∀ directory name, (directory = "" ∨ ∃ above, directory = above ++ "/") →
      '/' ∉ name.toList →
      pluginName (directory ++ "protoc-gen-" ++ name ++ ".exe") = name ∧
      ((¬ ∃ front, name = front ++ ".exe") →
        pluginName (directory ++ "protoc-gen-" ++ name) = name) := by
  intro out line
  have same : call.outArgument = out := by
    simp only [outArgument, allOptions, join_eq_intercalate, out]
  refine ⟨?plain, ?long, ?scratch, ?names, ?spelled⟩
  case plain =>
    simp only [arguments, same, descriptorArguments_eq, pluginArgument, line]
  case long =>
    simp only [arguments, same, descriptorArguments_eq, pluginArgument, line]
  case scratch =>
    intro clean
    rw [← same]
    exact lastPart_outArgument clean
  case names =>
    obtain ⟨name, last⟩ := exists_lastPart '/' call.plugin
    refine ⟨name, last, ?_, programName_of_other last⟩
    rintro ⟨rest, rfl⟩
    exact programName_of_start last
  case spelled =>
    intro directory name whole clean
    simp only [String.append_assoc]
    exact ⟨pluginName_with_tail whole clean, pluginName_plain whole clean⟩

/-- Colons in an option and in an import, a directory that has the usual beginning in it, and a
program whose name has the tail twice. -/
theorem arguments_parts_colons :
    let call : Invocation :=
      ⟨"/opt/protoc-gen-x/protoc-gen-go.exe.exe", "/tmp/go_proto1", ["paths=a:b"],
        ["p.proto=h:1/p"], ["d.bin", "e.bin"], ["."], ["p.proto"], ["--fatal"]⟩
    call.arguments .win32 "/w" = ["--fatal",
        "--go.exe_out=paths=a:b,Mp.proto=h:1/p:/tmp/go_proto1", "--plugin",
        "protoc-gen-go.exe=" ++ Path.rawMark ++ "/opt/protoc-gen-x/protoc-gen-go.exe.exe",
        "--descriptor_set_in", "d.bin:e.bin", "-I.", "p.proto"] ∧
      ':' ∉ call.scratch.toList ∧
      LastPart ':' "--go.exe_out=paths=a:b,Mp.proto=h:1/p:/tmp/go_proto1" call.scratch ∧
      programName call.plugin = "protoc-gen-" ++ pluginName call.plugin ∧
      '/' ∉ "go.exe".toList ∧ pluginName call.plugin = "go.exe" := by
  intro call
  have clean : ':' ∉ call.scratch.toList := by decide
  have slash : '/' ∉ "go.exe".toList := by decide
  have out : "--" ++ pluginName call.plugin ++ "_out="
      ++ ",".intercalate (call.options ++ call.imports.map fun item => "M" ++ item)
      ++ ":" ++ call.scratch = "--go.exe_out=paths=a:b,Mp.proto=h:1/p:/tmp/go_proto1" := by
    decide +kernel
  have plugin : call.plugin = "/opt/protoc-gen-x/" ++ "protoc-gen-" ++ "go.exe" ++ ".exe" := by
    decide +kernel
  obtain ⟨-, long, scratch, ⟨name, last, start, -⟩, spelled⟩ := arguments_parts call "/w"
  have here : name = "protoc-gen-go.exe.exe" :=
    (afterLast_of_lastPart last).symm.trans (by decide +kernel)
  refine ⟨long.trans (by decide +kernel), clean, ?_, start ⟨"go.exe.exe", here⟩, slash, ?_⟩
  · rw [out] at scratch
    exact (scratch clean call.scratch).mpr rfl
  · rw [plugin]
    exact (spelled "/opt/protoc-gen-x/" "go.exe" (Or.inr ⟨"/opt/protoc-gen-x", rfl⟩) slash).1

end Invocation
end Emplace
