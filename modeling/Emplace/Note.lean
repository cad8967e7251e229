import Emplace.Failure

/-!
What a run tells about itself, apart from its result.
-/
namespace Emplace

inductive Level where
  | debug
  | info
  | warning
  | error
  deriving DecidableEq, Repr

namespace Level

def rank : Level → Nat
  | .debug => 10
  | .info => 20
  | .warning => 30
  | .error => 40

def label : Level → String
  | .debug => "DEBUG"
  | .info => "INFO"
  | .warning => "WARNING"
  | .error => "ERROR"

end Level

inductive Note where
  | declaredTwice (path : String)
  | fed (rel target : String) (state : MatchState)
  /-- A second produced file fits an output that is bound already. -/
  | rival (rel target : String) (bound : Option Path)
  | scanned (seen declared : Nat)
  | substituted (path : String)
  | reconciled (importpath : String) (counts : List (MatchState × Nat))
  | configMissing (file : String)
  | running (command : String)
  | reportWritten (path : String)
  | reportFailed (e : ReconcileError)
  | failed (e : Failure)
  deriving DecidableEq, Repr

namespace Note

def level : Note → Level
  | .declaredTwice _ => .debug
  | .fed _ _ _ => .debug
  | .rival _ _ _ => .debug
  | .scanned _ _ => .debug
  | .substituted _ => .debug
  | .reconciled _ _ => .info
  | .configMissing _ => .warning
  | .running _ => .debug
  | .reportWritten _ => .info
  | .reportFailed _ => .error
  | .failed _ => .error

def topic : Note → String
  | .declaredTwice _ => "protoc_adapter.output_registry"
  | .fed _ _ _ => "protoc_adapter.walk_scratch_tree"
  | .rival _ _ _ => "protoc_adapter.output_registry"
  | .scanned _ _ => "protoc_adapter.reconcile"
  | .substituted _ => "protoc_adapter.emit_outputs"
  | .reconciled _ _ => "protoc_adapter.reconcile"
  | .configMissing _ => "protoc_adapter.load_config"
  | .running _ => "protoc_adapter.run_protoc"
  | .reportWritten _ => "protoc_adapter.run_compile"
  | .reportFailed _ => "protoc_adapter.run_compile"
  | .failed _ => "protoc_adapter"

/-- The states that occurred with their counts, in the order of their labels. -/
def summary (counts : List (MatchState × Nat)) : String :=
  Text.join ", " <| MatchState.all.filterMap fun state =>
    (counts.lookup state).map fun n => state.label ++ "=" ++ Text.natural n

def text : Note → String
  | .declaredTwice path => "Ignoring duplicate expected path: " ++ path
  | .fed rel target state => rel ++ " -> " ++ target ++ " (" ++ state.label ++ ")"
  | .rival rel target bound =>
    "Second candidate " ++ rel ++ " for " ++ target ++ " (already bound to "
      ++ (bound.map Path.text).getD "None" ++ ")"
  | .scanned seen declared =>
    "Scanned " ++ Text.natural seen ++ " generated files for " ++ Text.natural declared
      ++ " expected outputs"
  | .substituted path => "No output produced for " ++ path ++ ", writing placeholder"
  | .reconciled importpath counts =>
    "Reconciled " ++ (if importpath = "" then "<no importpath>" else importpath) ++ ": "
      ++ summary counts
  | .configMissing file => "Config file " ++ file ++ " not found, using defaults"
  | .running command => "Running: " ++ command
  | .reportWritten path => "Wrote reconciliation report to " ++ path
  | .reportFailed e => e.message
  | .failed e => e.message

def line (note : Note) : String :=
  note.level.label ++ " " ++ note.topic ++ ": " ++ note.text ++ "\n"

end Note
end Emplace
