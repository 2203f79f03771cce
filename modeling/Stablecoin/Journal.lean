/-!
# The journal

The lines that operations write for operators to read.
-/
namespace Stablecoin

inductive LogLevel where
  | info
  | debug
  deriving DecidableEq, Repr

structure LogLine where
  level : LogLevel
  text : String
  deriving DecidableEq, Repr

namespace LogLine

def about (level : LogLevel) (operation text : String) : LogLine :=
  ⟨level, "[" ++ operation ++ "] " ++ text⟩

end LogLine

end Stablecoin
