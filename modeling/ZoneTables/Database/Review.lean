import ZoneTables.Database.Finding

/-!
# Reviews

The passage of one named entry through one check: either the entry is kept,
perhaps changed, or it is removed for a reason; notes are taken in both cases.
A map of entries is reviewed entry by entry, in name order.
-/

namespace ZoneTables

/-- The outcome of a check and the notes taken on the way. -/
structure Review (α : Type) where
  notes : List Note
  result : Except Removal α

namespace Review

variable {α β : Type}

def keep (a : α) : Review α := ⟨[], .ok a⟩

def remove (why : Removal) : Review α := ⟨[], .error why⟩

def note (n : Note) : Review Unit := ⟨[n], .ok ()⟩

def andThen (r : Review α) (f : α → Review β) : Review β :=
  match r.result with
  | .error why => ⟨r.notes, .error why⟩
  | .ok a => ⟨r.notes ++ (f a).notes, (f a).result⟩

instance : Monad Review where
  pure := keep
  bind := andThen

/-- Reviews the parts of an entry in order.  The first part that has to go
takes the entry with it. -/
def forAll (f : α → Review β) : List α → Review (List β)
  | [] => keep []
  | a :: rest => do
    let b ← f a
    let bs ← forAll f rest
    return b :: bs

def findings (subject : Subject) (name : String) (r : Review α) :
    List Finding :=
  r.notes.map (Finding.noted subject name) ++
    match r.result with
    | .ok _ => []
    | .error why => [.removed subject name why]

def kept? (r : Review α) : Option α := r.result.toOption

end Review

structure Reviewed (α : Type) where
  kept : NameMap α
  findings : List Finding

namespace NameMap

variable {α β : Type}

def review (subject : Subject) (f : String → α → Review β) (m : NameMap α) :
    Reviewed β :=
  let reviews := m.map f
  { kept := reviews.filterMap fun _ r => r.kept?
    findings := reviews.entries.flatMap fun (name, r) =>
      r.findings subject name }

end NameMap

end ZoneTables
