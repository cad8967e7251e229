/-!
What one run of the library is asked for.
-/
namespace Emplace

/-- A request to generate sources: the programs to run, what to hand to them, and where the declared
outputs are to be put. -/
structure Request where
  compiler : String
  outPath : String
  plugin : String
  importpath : String
  options : List String
  descriptorSets : List String
  includes : List String
  expected : List String
  imports : List String
  leading : List String
  config : Option String
  report : Option String
  verbosity : Nat
  sources : List String
  deriving DecidableEq, Repr

end Emplace
