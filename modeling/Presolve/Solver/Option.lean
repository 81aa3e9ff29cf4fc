/-!
# The options of a solver

The names of the eleven options. `Options` assigns a value to each name, and the value that
means "unset" is up to the type of the values.
-/

namespace Presolve

inductive OptionName where
  | npt
  | maxfun
  | rhobeg
  | rhoend
  | ftarget
  | classical
  | scale
  | quiet
  | debug
  | chkfunval
  | solver
deriving DecidableEq, Repr

namespace OptionName

/-- All names. -/
def all : List OptionName :=
  [npt, maxfun, rhobeg, rhoend, ftarget, classical, scale, quiet, debug, chkfunval, solver]

/-- The names that every solver accepts: all but the number of interpolation points. -/
def common : List OptionName :=
  [maxfun, rhobeg, rhoend, ftarget, classical, scale, quiet, debug, chkfunval, solver]

def key : OptionName → String
  | npt => "npt"
  | maxfun => "maxfun"
  | rhobeg => "rhobeg"
  | rhoend => "rhoend"
  | ftarget => "ftarget"
  | classical => "classical"
  | scale => "scale"
  | quiet => "quiet"
  | debug => "debug"
  | chkfunval => "chkfunval"
  | solver => "solver"

def ofKey? (key : String) : Option OptionName :=
  all.find? fun name => name.key == key

theorem mem_all (name : OptionName) : name ∈ all := by
  cases name <;> decide

theorem ofKey?_key (name : OptionName) : ofKey? name.key = some name := by
  cases name <;> decide

end OptionName
end Presolve
