import Emplace.Fault
import Emplace.Record
import Emplace.Yaml.Problem

/-!
The library's own errors, by stage, and their wording. A `Failure` is one of these or a fault that
no stage takes for its own.
-/
namespace Emplace

inductive ConfigError where
  | unreadableParams (file : String) (e : SystemError)
  | unreadable (file : String) (e : SystemError)
  | malformed (file : String) (problem : Yaml.Problem)
  | notMapping (file kind : String)
  deriving DecidableEq, Repr

inductive InvocationError where
  | notStarted (command : String) (e : SystemError)
  | exited (command : String) (status : Int) (complaint : Option String)
  deriving DecidableEq, Repr

inductive ReconcileError where
  | outputRoot (root : String) (e : SystemError)
  | unreadableScratch (dir : String) (cause : Cause)
  | notMirrored (dir : String) (e : SystemError)
  | outside (path root : String)
  | noParent (path : String) (e : SystemError)
  | noPlaceholder (path : String) (e : SystemError)
  | notCopied (source path : String) (e : SystemError)
  | noSource (path : String)
  | noReport (path : String) (e : SystemError)
  | ambiguous (paths : List String) (importpath : String)
  deriving DecidableEq, Repr

inductive Failure where
  | config (e : ConfigError)
  | invocation (e : InvocationError)
  | reconcile (e : ReconcileError)
  | fault (f : Fault)
  deriving DecidableEq, Repr

def ConfigError.message : ConfigError → String
  | .unreadableParams file e => "Cannot read params file " ++ file ++ ": " ++ e.text
  | .unreadable file e => "Cannot load config " ++ file ++ ": " ++ e.text
  | .malformed file problem => "Cannot load config " ++ file ++ ": " ++ problem.message
  | .notMapping file kind => "Config " ++ file ++ " must be a mapping, got " ++ kind

def InvocationError.message : InvocationError → String
  | .notStarted command e => "error running '" ++ command ++ "': " ++ e.text
  | .exited command status complaint =>
    "error running '" ++ command ++ "': exit status " ++ Text.integer status
      ++ (match complaint with
        | none => ""
        | some text => "\n" ++ text)

/-- The report of all ambiguous paths at once, with a hint at the usual reason. -/
def ambiguityMessage (paths : List String) (importpath : String) : String :=
  Text.join "\n" (paths.map (fun path => "Ambiguous output " ++ path ++ ".")
    ++ ["Check that the go_package option is \"" ++ importpath ++ "\"."])

def ReconcileError.message : ReconcileError → String
  | .outputRoot root e => "Cannot create output root " ++ root ++ ": " ++ e.text
  | .unreadableScratch dir cause =>
    "Cannot read scratch directory " ++ dir ++ ": " ++ cause.text
  | .notMirrored dir e => "Cannot create output directory " ++ dir ++ ": " ++ e.text
  | .outside path root => "Expected output " ++ path ++ " resolves outside " ++ root
  | .noParent path e => "Cannot create directory for " ++ path ++ ": " ++ e.text
  | .noPlaceholder path e => "Cannot write placeholder " ++ path ++ ": " ++ e.text
  | .notCopied source path e => "Cannot copy " ++ source ++ " to " ++ path ++ ": " ++ e.text
  | .noSource path => "Resolved output " ++ path ++ " has no source file"
  | .noReport path e => "Cannot write reconciliation report " ++ path ++ ": " ++ e.text
  | .ambiguous paths importpath => ambiguityMessage paths importpath

def Failure.message : Failure → String
  | .config e => e.message
  | .invocation e => e.message
  | .reconcile e => e.message
  | .fault f => f.message

/-- Turns a refused system call into the error of a stage; other faults stay what they are. -/
def Fault.blame (stage : SystemError → Failure) : Fault → Failure
  | .system e => stage e
  | fault => .fault fault

end Emplace
