import ZoneTables.Database.Review
import ZoneTables.Source.Record

/-!
# Retention of eras

Of the eras of a zone those are kept that can matter from the year before a
window to the year after it.  If later eras are cut off, the last one that is
kept is given no end.
-/

namespace ZoneTables

inductive EraPlace where
  /-- It ends too early to matter. -/
  | tooOld
  /-- It can matter. -/
  | kept
  /-- It starts too late to matter. -/
  | tooNew
deriving DecidableEq

def SourceEra.place (window : Window) (startYear : Option Int)
    (era : SourceEra) : EraPlace :=
  if era.endYear < window.start - 1 then .tooOld
  else if startYear.any fun year => window.stop + 1 < year then .tooNew
  else .kept

/-- The eras of a zone with their places; each starts when the one before it
ends. -/
def erasWithPlace (window : Window) (startYear : Option Int) :
    List SourceEra → List (SourceEra × EraPlace)
  | [] => []
  | era :: rest =>
    (era, era.place window startYear) ::
      erasWithPlace window (some era.endYear) rest

def openLast : List SourceEra → List SourceEra
  | [] => []
  | [era] => [{ era with ends := none }]
  | era :: rest => era :: openLast rest

structure TrimmedZone where
  kept : List SourceEra
  tooOld : Nat
  tooNew : Nat
  total : Nat

namespace TrimmedZone

def of (window : Window) (eras : List SourceEra) : TrimmedZone :=
  let placed := erasWithPlace window none eras
  let kept := (placed.filter fun p => p.2 == .kept).map Prod.fst
  let tooNew := placed.countP fun p => p.2 == .tooNew
  { kept := if tooNew = 0 then kept else openLast kept
    tooOld := placed.countP fun p => p.2 == .tooOld
    tooNew
    total := eras.length }

/-- Removes a zone without an era in the window, and notes which eras were
cut off another. -/
def review (window : Window) (zone : TrimmedZone) :
    Review (List SourceEra) :=
  if zone.kept.isEmpty then .remove (.erasOutside zone.total window)
  else do
    if zone.tooOld ≠ 0 then
      Review.note (.erasBefore zone.tooOld window.start)
    if zone.tooNew ≠ 0 then
      Review.note (.erasAfter zone.tooNew window.stop)
    return zone.kept

end TrimmedZone

end ZoneTables
