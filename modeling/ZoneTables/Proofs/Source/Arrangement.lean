import ZoneTables.Proofs.Source.Blocks

/-!
# Arrangements of blocks

Blocks can stand in any texts and in any order, with lines between them that
have no content.  What is read is the same if the rules of each policy keep
their order: names of zones and links are only looked up to see whether they
are new, and that does not depend on which of two came first.
-/

namespace ZoneTables

def Block.policy? (b : Block) : Option String :=
  match lineTokens b.head with
  | keyword :: policy :: _ =>
    if keywordWord keyword = "rule" ∨ keywordWord keyword = "r" then
      some policy
    else none
  | _ => none

/-- Whether the lines of texts that have content are the given blocks, one
after the other, with each block in one text. -/
def Arranges (texts : List SourceText) (blocks : List Block) : Prop :=
  ∃ groups : List (List Block), groups.flatten = blocks ∧
    texts.map SourceText.contentLines =
      groups.map fun group => group.flatMap Block.lines

/-- Whether two lists hold the same blocks, and the rules of each policy in the
same order. -/
structure SameBlocks (blocks others : List Block) : Prop where
  perm : blocks.Perm others
  rules : ∀ policy, blocks.filter (fun b => b.policy? == some policy) =
    others.filter fun b => b.policy? == some policy

/-! ## Reading an arrangement -/

theorem Source.foldlM_readLines? (groups : List (List Block)) :
    ∀ s : Source,
      groups.foldlM (fun s group => s.readLines? (group.flatMap Block.lines))
        s = groups.flatten.foldlM readBlock? s := by
  induction groups with
  | nil => exact fun _ => rfl
  | cons group rest ih =>
    intro s
    rw [List.foldlM_cons, List.flatten_cons, List.foldlM_append,
      s.readLines?_flatMap]
    exact congrArg _ (funext ih)

theorem Arranges.records? {texts : List SourceText} {blocks : List Block}
    (h : Arranges texts blocks) :
    (Source.empty.readTexts [] texts).records? =
      blocks.foldlM Source.readBlock? Source.empty := by
  obtain ⟨groups, rfl, htexts⟩ := h
  rw [Source.records?_readTexts, htexts, List.foldlM_map]
  exact Source.foldlM_readLines? groups Source.empty

theorem Source.foldlM_readBlock? (blocks : List Block) :
    ∀ s : Source, blocks.foldlM readBlock? s =
      if blocks.all fun b => b.meaning?.isSome then
        (blocks.filterMap Block.meaning?).foldlM extend? s
      else none := by
  induction blocks with
  | nil => exact fun _ => rfl
  | cons b rest ih =>
    intro s
    rw [List.foldlM_cons, readBlock?_eq, List.all_cons]
    cases hentry : b.meaning? with
    | none => rfl
    | some entry =>
      rw [List.filterMap_cons_some hentry, List.foldlM_cons, Option.bind_some,
        Option.isSome_some, Bool.true_and]
      cases s.extend? entry with
      | none => exact (ite_self none).symm
      | some t => exact ih t

/-! ## Entries of each kind -/

namespace NameMap

variable {α : Type}

def putNew? (m : NameMap α) (p : String × α) : Option (NameMap α) :=
  if m.contains p.1 then none else some (m.insert p.1 p.2)

theorem putNew?_comm (m : NameMap α) (p q : String × α) :
    (m.putNew? p).bind (·.putNew? q) = (m.putNew? q).bind (·.putNew? p) := by
  unfold putNew?
  by_cases hpq : p.1 = q.1
  · cases hp : m.contains p.1 <;>
      simp [contains_insert, hpq, hpq ▸ hp]
  · cases hp : m.contains p.1 <;> cases hq : m.contains q.1 <;>
      simp [contains_insert, hp, hq, hpq, Ne.symm hpq, insert_comm hpq]

theorem foldlM_putNew?_perm {ps qs : List (String × α)} (h : ps.Perm qs) :
    ∀ m : NameMap α, ps.foldlM putNew? m = qs.foldlM putNew? m := by
  induction h with
  | nil => exact fun _ => rfl
  | cons p _ ih =>
    intro m
    rw [List.foldlM_cons, List.foldlM_cons]
    exact congrArg _ (funext ih)
  | swap p q rest =>
    intro m
    simp only [List.foldlM_cons]
    rw [← bind_assoc, ← bind_assoc]
    exact congrArg (· >>= fun m => rest.foldlM putNew? m) (m.putNew?_comm q p)
  | trans _ _ ihp ihq => exact fun m => (ihp m).trans (ihq m)

theorem get?_foldl_push (name : String) (ps : List (String × α)) :
    ∀ {m n : NameMap (List α)}, m.get? name = n.get? name →
      (ps.foldl push m).get? name =
        ((ps.filter fun p => p.1 == name).foldl push n).get? name := by
  induction ps with
  | nil => exact fun h => h
  | cons p rest ih =>
    intro m n h
    rw [List.filter_cons]
    by_cases hname : p.1 = name
    · rw [if_pos (beq_iff_eq.2 hname), List.foldl_cons, List.foldl_cons]
      refine ih ?_
      rw [push, push, get?_alter, get?_alter, if_pos hname.symm,
        if_pos hname.symm, hname, h]
    · rw [if_neg (by rw [beq_iff_eq]; exact hname), List.foldl_cons]
      refine ih ?_
      rw [push, get?_alter, if_neg (Ne.symm hname), h]

theorem foldl_push_congr {ps qs : List (String × α)}
    (h : ∀ name, ps.filter (fun p => p.1 == name) =
      qs.filter fun p => p.1 == name) (m : NameMap (List α)) :
    ps.foldl push m = qs.foldl push m := by
  refine eq_of_get?_eq fun name => ?_
  rw [get?_foldl_push name ps rfl, h name, ← get?_foldl_push name qs rfl]

end NameMap

namespace Entry

def rule? : Entry → Option (String × SourceRule)
  | rule policy r => some (policy, r)
  | _ => none

def zone? : Entry → Option (String × List SourceEra)
  | zone name eras => some (name, eras)
  | _ => none

def link? : Entry → Option (String × String)
  | link target name => some (name, target)
  | _ => none

end Entry

/-- Policies, zones and links do not depend on each other. -/
theorem Source.foldlM_extend? (es : List Entry) :
    ∀ s : Source, (es.foldlM extend? s).map uncounted =
      ((es.filterMap Entry.zone?).foldlM NameMap.putNew? s.zones).bind
        fun zones =>
          ((es.filterMap Entry.link?).foldlM NameMap.putNew? s.links).map
            fun links =>
              ⟨(es.filterMap Entry.rule?).foldl NameMap.push s.policies,
                zones, links, .zero⟩ := by
  induction es with
  | nil => exact fun _ => rfl
  | cons e rest ih =>
    intro s
    rw [List.foldlM_cons]
    cases e with
    | rule policy r => exact ih (s.addRule policy r).uncounted
    | zone name eras =>
      change ((extend? s (.zone name eras)).bind _).map uncounted =
        ((NameMap.putNew? s.zones (name, eras)).bind _).bind _
      cases hname : s.zones.contains name with
      | true =>
        rw [extend?, NameMap.putNew?, if_pos hname, if_pos hname]
        rfl
      | false =>
        rw [extend?, NameMap.putNew?, hname]
        exact ih (s.putZone name eras)
    | link target name =>
      change ((extend? s (.link target name)).bind _).map uncounted =
        Option.bind _ fun zones =>
          ((NameMap.putNew? s.links (name, target)).bind _).map _
      cases hname : s.links.contains name with
      | true =>
        rw [extend?, NameMap.putNew?, if_pos hname, if_pos hname]
        exact (Option.bind_fun_none _).symm
      | false =>
        rw [extend?, NameMap.putNew?, hname]
        exact ih (s.setLink name target).uncounted
    | ignored => exact ih s.uncounted

/-! ## The same blocks in another arrangement -/

theorem Block.policy?_of_meaning? {b : Block} {policy : String} {r : SourceRule}
    (h : b.meaning? = some (.rule policy r)) : b.policy? = some policy := by
  obtain ⟨record, hread, hentry⟩ := Option.bind_eq_some_iff.1 h
  rw [except_toOption_eq_some] at hread
  cases record with
  | rule policy' r' =>
    dsimp only [Record.meaning?] at hentry
    split at hentry
    · cases hentry
      have hsays := Record.read_eq_ok_iff.1 hread
      unfold policy?
      generalize lineTokens b.head = tokens at hsays ⊢
      cases hsays with
      | rule hword => exact if_pos hword
    · cases hentry
  | zone name era =>
    obtain ⟨_, _, h⟩ := Option.map_eq_some_iff.1 hentry
    cases h
  | link target name =>
    dsimp only [Record.meaning?] at hentry
    split at hentry <;> cases hentry
  | ignored keyword =>
    dsimp only [Record.meaning?] at hentry
    split at hentry <;> cases hentry

def Block.ruleOf? (policy : String) (b : Block) :
    Option (String × SourceRule) :=
  (b.meaning?.bind Entry.rule?).filter fun p => p.1 == policy

theorem Block.ruleOf?_eq_none {b : Block} {policy : String}
    (h : (b.policy? == some policy) = false) : b.ruleOf? policy = none := by
  rw [beq_eq_false_iff_ne] at h
  unfold ruleOf?
  cases hentry : b.meaning? with
  | none => rfl
  | some e =>
    cases e with
    | rule policy' r =>
      refine Option.filter_some_neg ?_
      rw [beq_eq_false_iff_ne]
      exact fun heq => h (heq ▸ policy?_of_meaning? hentry)
    | zone name eras => rfl
    | link target name => rfl
    | ignored => rfl

theorem Block.filterMap_ruleOf? (policy : String) (blocks : List Block) :
    blocks.filterMap (ruleOf? policy) =
      (blocks.filter fun b => b.policy? == some policy).filterMap
        (ruleOf? policy) := by
  rw [List.filterMap_filter]
  refine List.filterMap_congr fun b _ => ?_
  cases hpolicy : b.policy? == some policy with
  | true => exact (if_pos rfl).symm
  | false => exact Block.ruleOf?_eq_none hpolicy

theorem SameBlocks.filter_rules {blocks others : List Block}
    (h : SameBlocks blocks others) (policy : String) :
    ((blocks.filterMap Block.meaning?).filterMap Entry.rule?).filter
        (fun p => p.1 == policy) =
      ((others.filterMap Block.meaning?).filterMap Entry.rule?).filter
        fun p => p.1 == policy := by
  have hrules : ∀ l : List Block,
      ((l.filterMap Block.meaning?).filterMap Entry.rule?).filter
        (fun p => p.1 == policy) = l.filterMap (Block.ruleOf? policy) := by
    intro l
    rw [List.filterMap_filterMap, List.filter_filterMap]
    rfl
  rw [hrules, hrules, Block.filterMap_ruleOf? policy blocks,
    Block.filterMap_ruleOf? policy others, h.rules policy]

theorem SameBlocks.foldlM_readBlock? {blocks others : List Block}
    (h : SameBlocks blocks others) (s : Source) :
    (blocks.foldlM Source.readBlock? s).map Source.uncounted =
      (others.foldlM Source.readBlock? s).map Source.uncounted := by
  have hentries : (blocks.filterMap Block.meaning?).Perm
      (others.filterMap Block.meaning?) := h.perm.filterMap _
  have hzones := NameMap.foldlM_putNew?_perm
    (hentries.filterMap Entry.zone?) s.zones
  have hlinks := NameMap.foldlM_putNew?_perm
    (hentries.filterMap Entry.link?) s.links
  have hrules := NameMap.foldl_push_congr h.filter_rules s.policies
  rw [Source.foldlM_readBlock?, Source.foldlM_readBlock?, h.perm.all_eq]
  split
  · rw [Source.foldlM_extend?, Source.foldlM_extend?, hzones, hlinks,
      hrules]
  · rfl

theorem Reading.records?_uncounted (r : Reading) :
    r.records?.map Source.uncounted = r.records? := by
  unfold records?
  split <;> rfl

theorem Arranges.records?_eq {texts others : List SourceText}
    {blocks blocks' : List Block} (h : Arranges texts blocks)
    (h' : Arranges others blocks') (hsame : SameBlocks blocks blocks') :
    (Source.empty.readTexts [] texts).records? =
      (Source.empty.readTexts [] others).records? := by
  rw [← Reading.records?_uncounted, h.records?, hsame.foldlM_readBlock?,
    ← h'.records?, Reading.records?_uncounted]

end ZoneTables
