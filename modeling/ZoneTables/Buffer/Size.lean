import ZoneTables.Buffer.Replay
import ZoneTables.Database.Basic

/-!
# Buffer sizes

The greatest number of transitions that a zone, and any zone, has to hold at
once, with the first year in which it does.
-/

namespace ZoneTables

/-- The room that a zone needs, and the first year in which it needs it. -/
structure BufferSize where
  size : Nat
  year : Int
deriving DecidableEq

namespace BufferSize

/-- The greatest need of years, which come last one first; without any, the
given year needs no room. -/
def ofYears (first : Int) (years : List ReplayedYear) : BufferSize :=
  years.reverse.foldl
    (fun peak y => if peak.size < y.need then ⟨y.need, y.year⟩ else peak)
    ⟨0, first⟩

end BufferSize

structure BufferSizes where
  zones : NameMap BufferSize
  greatest : Nat
deriving DecidableEq

namespace BufferSizes

def empty : BufferSizes := ⟨.empty, 0⟩

def of (zones : NameMap BufferSize) : BufferSizes :=
  ⟨zones, zones.values.foldl (fun n size => max n size.size) 0⟩

def peaks (s : BufferSizes) : List (String × Int) :=
  (s.zones.entries.filter fun p => p.2.size == s.greatest).map fun p =>
    (p.1, p.2.year)

def excess? (s : BufferSizes) (capacity : Nat) : Option BufferError :=
  if s.greatest ≤ capacity then none
  else
    let (zone, year) := s.peaks.head?.getD ("", 0)
    some (.tooLarge s.greatest capacity zone year)

end BufferSizes

structure Measured (α : Type) where
  log : Log
  result : Except BufferError α

/-- The log of measurements that are made in order, of which the first that
fails is the last one made. -/
def Measured.logUntilFault {α : Type} : List (Measured α) → Log
  | [] => []
  | m :: rest =>
    match m.result with
    | .error _ => m.log
    | .ok _ => m.log ++ logUntilFault rest

namespace BufferSizes

def check (s : BufferSizes) (capacity : Nat) (ignore : Bool) :
    Measured Unit :=
  match s.excess? capacity with
  | none => ⟨[], .ok ()⟩
  | some fault =>
    if ignore then ⟨[⟨.warn, fault.message⟩], .ok ()⟩
    else ⟨[], .error fault⟩

def summary (s : BufferSizes) (window : Window) : Log :=
  ⟨.info, s!"estimated {s.zones.size} zones over {window.text}: " ++
    s!"max buffer size {s.greatest}"⟩ ::
  s.peaks.map fun (zone, year) => ⟨.info, s!"  {zone} in {year}"⟩

end BufferSizes

def measureZone (policies : Policies) (window : Window) (zone : String)
    (eras : List Era) : Measured BufferSize :=
  match spans zone policies eras with
  | .error fault => ⟨[], .error fault⟩
  | .ok spans =>
    let replay := (⟨zone, spans⟩ : ZoneReplay).window window
    let ties := replay.years.reverse.flatMap (·.ties zone)
    match replay.fault with
    | some fault => ⟨ties, .error fault⟩
    | none =>
      let peak := BufferSize.ofYears (window.start - 1) replay.years
      ⟨ties ++
        [⟨.trace, s!"zone {zone}: peak {peak.size} in {peak.year}"⟩],
        .ok peak⟩

namespace Database

/-- Measures the zones over a window in name order, up to the first one that
cannot be measured. -/
def bufferSizes (db : Database) (window : Window) : Measured BufferSizes :=
  if window.isEmpty || !window.isInRange then
    ⟨[], .error (.windowOutOfRange window)⟩
  else
    let measured := db.zones.map (measureZone db.policies window)
    let log := Measured.logUntilFault measured.values
    match measured.traverse fun _ m => m.result with
    | .error fault => ⟨log, .error fault⟩
    | .ok zones =>
      let sizes := BufferSizes.of zones
      ⟨log ++ sizes.summary window, .ok sizes⟩

end Database

end ZoneTables
