import ZoneTables.Buffer.Span
import ZoneTables.Sort

/-!
# Candidates

The transitions that can take effect in a year: the starts of eras and the
occurrences of rules.  Of candidates at the same instant one wins, by an order
that does not depend on the order in which they were found.
-/

namespace ZoneTables

inductive Origin where
  /-- The start of an era, by its position in the zone. -/
  | eraStart (index : Nat)
  /-- A rule, by its position in the policy. -/
  | rule (index : Nat)
deriving DecidableEq

namespace Origin

/-- Starts of eras come before rules, and each kind is in order of position. -/
def isBefore : Origin → Origin → Bool
  | eraStart i, eraStart j => decide (i < j)
  | eraStart _, rule _ => true
  | rule _, eraStart _ => false
  | rule i, rule j => decide (i < j)

def text : Origin → String
  | eraStart i => s!"EraStart({i})"
  | rule i => s!"Rule({i})"

end Origin

structure Candidate where
  instant : Int
  /-- The policy of the era, empty without one. -/
  policy : String
  origin : Origin
  save : Int
deriving DecidableEq

namespace Candidate

def winsOver (a b : Candidate) : Bool :=
  if a.policy = b.policy then a.origin.isBefore b.origin
  else decide (a.policy < b.policy)

def inOrder (cs : List Candidate) : List Candidate :=
  sortByKey instant cs

def groups (cs : List Candidate) : List (List Candidate) :=
  cs.splitBy fun a b => a.instant == b.instant

def winner? (group : List Candidate) : Option Candidate :=
  firstLeast? winsOver group

def saveAfter (save : Int) (cs : List Candidate) : Int :=
  match (groups cs).getLast?.bind winner? with
  | some c => c.save
  | none => save

end Candidate

end ZoneTables
