import Presolve.Fault

/-!
# Logs of diagnostics

An append-only log of what was found and worked around. An entry is recorded first and then issued
to the caller, unless the log is quiet; where the caller escalates the category of the entry, it
ends the computation instead of being issued. The place in the log is the number of an entry.
-/

namespace Presolve

/-- What can be an entry of a log. -/
class Notice (ν : Type) where
  id : ν → String
  message : ν → Text
  category : ν → Category

/-- An entry given by its texts. -/
structure Remark where
  id : String
  message : Text
  category : Category
deriving DecidableEq, Repr

instance : Notice Remark := ⟨Remark.id, Remark.message, Remark.category⟩

/-- The entries in the order they were recorded, and those that were issued. -/
structure DiagnosticLog (ν : Type) where
  entries : List ν := []
  issued : List ν := []

namespace DiagnosticLog

variable {ν : Type} [Notice ν]

/-- Is an entry escalated by a caller who escalates `wider`? -/
def isEscalated (wider : Option Category) (entry : ν) : Bool :=
  wider.any fun c => (Notice.category entry).within c

/-- Records an entry and issues it. -/
def add (quiet : Bool) (escalated : Option Category) (entry : ν) (log : DiagnosticLog ν) :
    Except Fault Unit × DiagnosticLog ν :=
  let log := { log with entries := log.entries ++ [entry] }
  if quiet then (.ok (), log)
  else if isEscalated escalated entry then
    (.error (.escalated (Notice.category entry) (Notice.message entry)), log)
  else (.ok (), { log with issued := log.issued ++ [entry] })

end DiagnosticLog
end Presolve
