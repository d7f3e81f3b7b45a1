import NodeSettings.Log.Setup

/-!
This module contains the loggers that records are given to. A logger passes its records on to the
one above it, up to the root or past it; what is set up for the log counts for those below the root.
-/

namespace NodeSettings
namespace Log

structure Loggers where
  names : List Text := []
  /-- What has been decided about the levels of loggers since the level of the log was set. -/
  decided : List ((Text × Int) × Bool) := []

namespace Loggers

/--
The way up from a name, which is given backwards, leads to the root. The logger above is the nearest
one of those whose names end in front of a dot; the search for the next dot leaves out the character
in front of the last, so that of two dots side by side it only finds the second.
-/
def leadsToRoot (names : List Text) : List CodePoint → Bool
  | p :: q :: rest =>
    let above : Text := ⟨(q :: rest).reverse⟩
    if p ≠ .char '.' then leadsToRoot names (q :: rest)
    else if above = (rootName : Text) then true
    else if names.contains above then leadsToRoot names (q :: rest)
    else leadsToRoot names rest
  | _ => false

def isUnderRoot (l : Loggers) (name : Text) : Bool :=
  name = (rootName : Text) || leadsToRoot l.names name.points.reverse

def setupOf (l : Loggers) (s : Setup) (name : Text) : Setup :=
  if l.isUnderRoot name then s else {}

/-- A record is of a level that its logger lets through, as has been decided before if it has. -/
def admits (l : Loggers) (s : Setup) (r : Record) : Bool :=
  (l.decided.lookup (r.logger, r.level)).getD ((l.setupOf s r.logger).admits r)

/-- The loggers after a record is given to one, which is there from then on. -/
def meet (l : Loggers) (s : Setup) (r : Record) : Loggers where
  names := r.logger :: l.names
  decided := ((r.logger, r.level), l.admits s r) :: l.decided

def configured (l : Loggers) (s : Setup) (o : Options) : Loggers :=
  if (s.newLevel? o).isSome then { l with decided := [] } else l

end Loggers
end Log
end NodeSettings
