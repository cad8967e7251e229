import Emplace.Path.Absolute

/-!
The command line that starts the compiler. One argument names the generator, its options and the
directory it writes to; another says which program the generator is.
-/
namespace Emplace

structure Invocation where
  plugin : String
  scratch : String
  options : List String
  imports : List String
  descriptorSets : List String
  includes : List String
  sources : List String
  leading : List String
  deriving DecidableEq, Repr

namespace Invocation

def programStart : String := "protoc-gen-"

def programTail : String := ".exe"

def pluginName (plugin : String) : String :=
  Text.dropTail (Text.dropStart (Text.afterLast '/' plugin) programStart) programTail

def programName (plugin : String) : String :=
  Text.dropTail (Text.afterLast '/' plugin) programTail

/-- The generator options: the plain ones, then one `M` item for each import. -/
def allOptions (call : Invocation) : List String :=
  call.options ++ call.imports.map fun item => "M" ++ item

def outArgument (call : Invocation) : String :=
  "--" ++ pluginName call.plugin ++ "_out=" ++ Text.join "," call.allOptions
    ++ ":" ++ call.scratch

def pluginArgument (platform : Path.Platform) (cwd : String) (call : Invocation) : String :=
  let path := match platform with
    | .win32 => Path.usable .win32 cwd call.plugin
    | .other => call.plugin
  programName call.plugin ++ "=" ++ path

def descriptorArguments (sets : List String) : List String :=
  match sets with
  | [] => []
  | _ => ["--descriptor_set_in", Text.join ":" sets]

def arguments (platform : Path.Platform) (cwd : String) (call : Invocation) : List String :=
  call.leading
    ++ [call.outArgument, "--plugin", call.pluginArgument platform cwd]
    ++ descriptorArguments call.descriptorSets
    ++ call.includes.map (fun directory => "-I" ++ directory)
    ++ call.sources

end Invocation
end Emplace
