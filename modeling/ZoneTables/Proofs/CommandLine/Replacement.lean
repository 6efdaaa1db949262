import Mathlib.Data.List.Nodup
import Mathlib.Data.List.Perm.Subperm
import ZoneTables.CommandLine.FileTree
import ZoneTables.Proofs.Success
import ZoneTables.Proofs.Text.Digits

/-!
# Replacing a file

Where a path leads depends on the directories alone, so that neither writing the
new file nor moving it changes what a path names.  A replacement either succeeds
and changes the content of one place, or it fails and the tree is as it was: the
new file stood where nothing had been, and it is removed again.
-/

namespace ZoneTables

namespace FileTree

variable {t t' : FileTree} {place other : Location}

/-! ## Changed places -/

theorem isAbsent_node_iff :
    (t.node place).isAbsent ↔ place ≠ [] ∧ t.nodes.lookup place = none := by
  unfold node
  by_cases hroot : place = []
  · simp [hroot, FileState.isAbsent]
  · cases t.nodes.lookup place with
    | none => simp [hroot, FileState.isAbsent]
    | some content => cases content <;> simp [hroot, FileState.isAbsent]

theorem remove_set (h : (t.node place).isAbsent)
    (content : Option ByteArray) : (t.set place content).remove place = t := by
  obtain ⟨_, hlookup⟩ := isAbsent_node_iff.1 h
  have hfree : ∀ p ∈ t.nodes, p.1 != place := by
    intro p hp
    rw [bne_comm]
    exact List.lookup_eq_none_iff.1 hlookup p hp
  have hfilter : (t.nodes.filter fun p => p.1 != place) = t.nodes :=
    List.filter_eq_self.2 hfree
  unfold set remove
  dsimp only
  rw [List.filter_cons, if_neg (by simp), hfilter, hfilter]

/-! ## Ways -/

structure SameWays (t t' : FileTree) : Prop where
  working : t.working = t'.working
  directory : ∀ place, (t.node place).isDirectory = (t'.node place).isDirectory

theorem SameWays.symm (h : t.SameWays t') : t'.SameWays t :=
  ⟨h.working.symm, fun place => (h.directory place).symm⟩

theorem SameWays.start_eq (h : t.SameWays t') (path : String) :
    t.start path = t'.start path := by
  unfold start
  rw [h.working]

theorem isDirectory_iff {state : FileState} :
    state.isDirectory ↔ state = .directory := by
  cases state <;> simp [FileState.isDirectory]

theorem walk_cons_of_directory {back : Location} {part : String}
    {rest : List String} (h : t.node back.reverse = .directory) :
    t.walk back (part :: rest) =
      if part = ".." then t.walk back.tail rest
      else if !Path.isStep part then t.walk back rest
      else if part.utf8ByteSize ≤ Path.maxNameSize then
        t.walk (part :: back) rest
      else .error .nameTooLong := by
  rw [walk, h]

theorem node_eq_directory_of_walk {back : Location} {part : String}
    {rest : List String} (h : t.walk back (part :: rest) = .ok place) :
    t.node back.reverse = .directory := by
  rw [walk] at h
  split at h
  · cases h
  · cases h
  · assumption

theorem SameWays.walk_eq (h : t.SameWays t') {parts : List String} :
    ∀ {back : Location}, t.walk back parts = .ok place →
      t'.walk back parts = .ok place := by
  induction parts with
  | nil => exact id
  | cons part rest ih =>
    intro back hwalk
    have hnode := node_eq_directory_of_walk hwalk
    have hnode' : t'.node back.reverse = .directory := by
      rw [← isDirectory_iff, ← h.directory, hnode]
      rfl
    rw [walk_cons_of_directory hnode] at hwalk
    rw [walk_cons_of_directory hnode']
    split at hwalk
    · rename_i hup
      rw [if_pos hup]
      exact ih hwalk
    · rename_i hup
      rw [if_neg hup]
      split at hwalk
      · rename_i hstay
        rw [if_pos hstay]
        exact ih hwalk
      · rename_i hstay
        rw [if_neg hstay]
        split at hwalk
        · rename_i hsize
          rw [if_pos hsize]
          exact ih hwalk
        · cases hwalk

theorem walk_append (front : List String) :
    ∀ {back : Location} {rest : List String},
      t.walk back (front ++ rest) =
        t.walk back front >>= fun place => t.walk place.reverse rest := by
  induction front with
  | nil =>
    intro back rest
    show t.walk back rest = t.walk back.reverse.reverse rest
    rw [List.reverse_reverse]
  | cons part front ih =>
    intro back rest
    rw [List.cons_append, walk, walk]
    split
    · rfl
    · rfl
    · split
      · exact ih
      · split
        · exact ih
        · split
          · exact ih
          · rfl

theorem SameWays.locate_eq (h : t.SameWays t') {path : String}
    (hlocate : t.locate path = .ok place) : t'.locate path = .ok place := by
  unfold locate at hlocate ⊢
  rw [← h.start_eq]
  split at hlocate
  · cases hlocate
  · rename_i hempty
    rw [if_neg hempty]
    split at hlocate
    · rename_i hsize
      rw [if_pos hsize]
      exact h.walk_eq hlocate
    · cases hlocate

theorem sameWays_set (hroot : place ≠ [])
    (h : (t.node place).isDirectory = false) (bytes : ByteArray) :
    t.SameWays (t.set place (some bytes)) where
  working := rfl
  directory other := by
    rw [node_set t hroot]
    split
    · rename_i hother
      rw [hother, h]
      rfl
    · rfl

/-! ## Places for files -/

theorem walk_empty {back : Location} (h : t.walk back [""] = .ok place) :
    t.node place = .directory ∧ place = back.reverse := by
  have hnode := node_eq_directory_of_walk h
  rw [walk_cons_of_directory hnode] at h
  cases h
  exact ⟨hnode, rfl⟩

theorem walk_name {name : String} (hname : Path.isStep name)
    (hup : name ≠ "..") (hsize : name.utf8ByteSize ≤ Path.maxNameSize)
    (h : t.node place = .directory) :
    t.walk place.reverse [name] = .ok (place ++ [name]) := by
  rw [walk_cons_of_directory (by rwa [List.reverse_reverse]), if_neg hup,
    if_neg (by simp [hname]), if_pos hsize, walk, List.reverse_cons,
    List.reverse_reverse]

/-- The place of a new file at a path: a name that no directory has, in a
directory to which the rest of the path leads. -/
structure FilePlace (t : FileTree) (path : String) (place : Location) :
    Prop where
  size : path.utf8ByteSize ≤ Path.maxSize
  split : ∃ above name directory, Path.parts path = above ++ [name] ∧
    Path.isStep name ∧ name ≠ ".." ∧
    name.utf8ByteSize ≤ Path.maxNameSize ∧
    t.walk (t.start path).reverse (above ++ [""]) = .ok directory ∧
    place = directory ++ [name]
  free : (t.node place).isDirectory = false

theorem eq_append_of_dropWhile {l above : List String} {name : String}
    (h : (l.reverse.dropWhile fun part => part == "") = name :: above)
    (hlast : (l.getLast? == some "") = false) :
    l = above.reverse ++ [name] ∧ name ≠ "" := by
  rw [List.getLast?_eq_head?_reverse] at hlast
  cases hl : l.reverse with
  | nil =>
    rw [hl] at h
    cases h
  | cons last front =>
    rw [hl] at h hlast
    have hne : last ≠ "" := by simpa using hlast
    rw [List.dropWhile_cons_of_neg (by simpa using hne)] at h
    cases h
    refine ⟨?_, hne⟩
    rw [← List.reverse_cons, ← hl, List.reverse_reverse]

theorem filePlace_eq_ok {path : String} :
    t.filePlace path = .ok place ↔ t.FilePlace path place := by
  constructor
  · intro h
    unfold filePlace at h
    by_cases hsize : path.utf8ByteSize ≤ Path.maxSize
    · rw [if_pos hsize] at h
      split at h
      · cases h
      · rename_i name above hback
        obtain ⟨directory, hwalk, h⟩ := except_bind_eq_ok.1 h
        simp only [except_ite_eq_ok, Bool.or_eq_true, decide_eq_true_eq, not_or]
          at h
        obtain ⟨⟨hdot, hup⟩, hname, hlast, hfree, hplace⟩ := h
        cases hplace
        obtain ⟨hparts, hne⟩ :=
          eq_append_of_dropWhile hback (Bool.eq_false_iff.2 hlast)
        have hstep : Path.isStep name := by simp [Path.isStep, hne, hdot]
        exact ⟨hsize, ⟨above.reverse, name, directory, hparts, hstep, hup,
          by omega, hwalk, rfl⟩, Bool.eq_false_iff.2 hfree⟩
    · rw [if_neg hsize] at h
      cases h
  · rintro ⟨hsize, ⟨above, name, directory, hparts, hstep, hup, hname, hwalk,
      rfl⟩, hfree⟩
    have hne : name ≠ "" ∧ name ≠ "." := by simpa [Path.isStep] using hstep
    have hback : ((Path.parts path).reverse.dropWhile fun part => part == "") =
        name :: above.reverse := by
      rw [hparts, List.reverse_append, List.reverse_singleton,
        List.singleton_append, List.dropWhile_cons_of_neg (by simp [hne.1])]
    have hdots : ¬ (decide (name = ".") || decide (name = "..")) = true := by
      simp [hne.2, hup]
    have hlast : ¬ ((Path.parts path).getLast? == some "") = true := by
      simp [hparts, hne.1]
    unfold filePlace
    rw [if_pos hsize, hback]
    dsimp only
    rw [List.reverse_reverse]
    refine except_bind_eq_ok.2 ⟨directory, hwalk, ?_⟩
    rw [if_neg hdots, if_neg (by omega), if_neg hlast,
      if_neg (Bool.eq_false_iff.1 hfree)]

theorem FilePlace.locate_eq {path : String} (h : t.FilePlace path place) :
    t.locate path = .ok place := by
  obtain ⟨hsize, ⟨above, name, directory, hparts, hstep, hup, hname, hwalk,
    rfl⟩, _⟩ := h
  rw [walk_append] at hwalk
  obtain ⟨reached, hfront, hback⟩ := except_bind_eq_ok.1 hwalk
  obtain ⟨hdirectory, hreached⟩ := walk_empty hback
  rw [List.reverse_reverse] at hreached
  subst hreached
  have hpath : path ≠ "" := by
    rintro rfl
    have hlast := congrArg List.getLast? hparts
    rw [List.getLast?_concat] at hlast
    rw [← Option.some.inj hlast] at hstep
    cases hstep
  unfold locate
  rw [if_neg hpath, if_pos hsize, hparts, walk_append, hfront]
  exact walk_name hstep hup hname hdirectory

theorem SameWays.filePlace (h : t.SameWays t') {path : String}
    (hplace : t.FilePlace path place) : t'.FilePlace path place := by
  obtain ⟨hsize, ⟨above, name, directory, hparts, hstep, hup, hname, hwalk,
    rfl⟩, hfree⟩ := hplace
  refine ⟨hsize, ⟨above, name, directory, hparts, hstep, hup, hname, ?_, rfl⟩,
    ?_⟩
  · rw [← h.start_eq]
    exact h.walk_eq hwalk
  · rw [← h.directory]
    exact hfree

/-! ## Replacing -/

theorem newFilePlace_eq_ok {directory : String} {names : List String} :
    t.newFilePlace directory names = .ok place ↔
      ∃ above name, t.locate directory = .ok above ∧
        t.node above = .directory ∧
        (names.find? fun name => (t.node (above ++ [name])).isAbsent) =
          some name ∧
        place = above ++ [name] := by
  unfold newFilePlace
  rw [except_bind_eq_ok]
  constructor
  · rintro ⟨above, habove, h⟩
    split at h
    · cases h
    · cases h
    · rename_i hnode
      split at h
      · rename_i name hname
        cases h
        exact ⟨above, name, habove, hnode, hname, rfl⟩
      · cases h
  · rintro ⟨above, name, habove, hnode, hname, rfl⟩
    refine ⟨above, habove, ?_⟩
    rw [hnode]
    dsimp only
    rw [hname]

theorem newName_injective :
    Function.Injective fun n : Nat => s!".tmp{n}" := by
  intro m n h
  have hlist : ".tmp".toList ++ (toString m).toList =
      ".tmp".toList ++ (toString n).toList := by
    rw [← String.toList_append, ← String.toList_append]
    exact congrArg String.toList h
  have hread := congrArg Text.readNat? (List.append_cancel_left hlist)
  rw [Text.readNat?_toString, Text.readNat?_toString] at hread
  exact Option.some.inj hread

/-- There are more new names than files, so that one is free in every
directory. -/
theorem exists_free_newName (t : FileTree) (above : Location) :
    ∃ name ∈ t.newNames, (t.node (above ++ [name])).isAbsent := by
  by_contra hnone
  push Not at hnone
  have hsub : t.newNames.map (fun name => above ++ [name]) ⊆
      t.nodes.map Prod.fst := by
    intro place hplace
    obtain ⟨name, hname, rfl⟩ := List.mem_map.1 hplace
    by_contra hmem
    apply hnone name hname
    rw [isAbsent_node_iff, List.lookup_eq_none_iff]
    refine ⟨by simp, fun p hp => ?_⟩
    rw [bne_iff_ne]
    exact fun heq => hmem (List.mem_map.2 ⟨p, hp, heq.symm⟩)
  have hnodup : (t.newNames.map fun name => above ++ [name]).Nodup := by
    apply List.Nodup.map
    · intro name name' heq
      simpa using heq
    · exact List.Nodup.map newName_injective List.nodup_range
  have hlength := (hnodup.subperm hsub).length_le
  simp only [newNames, List.length_map, List.length_range] at hlength
  omega

theorem exists_newFilePlace_newNames {directory : String} :
    (∃ beside, t.newFilePlace directory t.newNames = .ok beside) ↔
      t.look directory = .directory := by
  constructor
  · rintro ⟨beside, hbeside⟩
    obtain ⟨above, name, habove, hnode, _⟩ := newFilePlace_eq_ok.1 hbeside
    unfold look
    rw [habove]
    exact hnode
  · intro hlook
    unfold look at hlook
    split at hlook
    · cases hlook
    · rename_i above habove
      obtain ⟨name, hname, hfree⟩ := t.exists_free_newName above
      have hsome : (t.newNames.find? fun name =>
          (t.node (above ++ [name])).isAbsent).isSome :=
        List.find?_isSome.2 ⟨name, hname, hfree⟩
      obtain ⟨first, hfirst⟩ := Option.isSome_iff_exists.1 hsome
      exact ⟨_, newFilePlace_eq_ok.2
        ⟨above, first, habove, hlook, hfirst, rfl⟩⟩

theorem isAbsent_of_newFilePlace {directory : String} {names : List String}
    (h : t.newFilePlace directory names = .ok place) :
    (t.node place).isAbsent := by
  obtain ⟨above, name, _, _, hname, rfl⟩ := newFilePlace_eq_ok.1 h
  exact (List.find?_eq_some_iff_append.1 hname).1

/-- A new file beside another one is there no longer, whether it takes the
place of the other one or not. -/
theorem replace_eq {names : List String} {path : String}
    {bytes : ByteArray} {beside : Location}
    (h : t.newFilePlace (Path.parent path) names = .ok beside) :
    t.replace names path bytes =
      match (t.set beside (some bytes)).filePlace path with
      | .error why => ⟨t, .error (.notReplaced why)⟩
      | .ok target => ⟨t.set target (some bytes), .ok ()⟩ := by
  have habsent := isAbsent_of_newFilePlace h
  have hroot := (isAbsent_node_iff.1 habsent).1
  have hremoved := remove_set habsent (some bytes)
  have hwritten : (t.set beside (some bytes)).node beside = .file bytes := by
    rw [node_set t hroot, if_pos rfl]
  unfold replace
  dsimp only
  rw [h]
  dsimp only
  unfold rename
  rw [hwritten, hremoved]
  cases (t.set beside (some bytes)).filePlace path <;> rfl

theorem filePlace_beside_iff {names : List String} {directory path : String}
    {bytes : ByteArray} {beside target : Location}
    (h : t.newFilePlace directory names = .ok beside) :
    (t.set beside (some bytes)).filePlace path = .ok target ↔
      t.FilePlace path target := by
  have habsent := isAbsent_of_newFilePlace h
  have hdirectory : (t.node beside).isDirectory = false := by
    cases hnode : t.node beside with
    | absent why => rfl
    | file bytes => rfl
    | directory =>
      rw [hnode] at habsent
      cases habsent
  have hways := sameWays_set (isAbsent_node_iff.1 habsent).1 hdirectory bytes
  rw [filePlace_eq_ok]
  exact ⟨hways.symm.filePlace, hways.filePlace⟩

theorem tree_replace_of_error {names : List String} {path : String}
    {bytes : ByteArray} {why : ReplaceError}
    (h : (t.replace names path bytes).result = .error why) :
    (t.replace names path bytes).tree = t := by
  cases hbeside : t.newFilePlace (Path.parent path) names with
  | error why =>
    unfold replace
    dsimp only
    rw [hbeside]
  | ok beside =>
    rw [replace_eq hbeside] at h ⊢
    split
    · rfl
    · rename_i hplace
      rw [hplace] at h
      cases h

/-- Whether two trees differ at most in the content of the file at a path,
which the second tree has. -/
structure Replaces (t after : FileTree) (path : String) (bytes : ByteArray) :
    Prop where
  working : after.working = t.working
  place : ∃ place, t.locate path = .ok place ∧
    after.locate path = .ok place ∧ after.node place = .file bytes ∧
    (t.node place).isDirectory = false ∧
    ∀ other, other ≠ place → after.node other = t.node other

theorem FilePlace.replaces {path : String} (h : t.FilePlace path place)
    (bytes : ByteArray) :
    t.Replaces (t.set place (some bytes)) path bytes := by
  have hroot : place ≠ [] := by
    obtain ⟨_, _, _, _, _, _, _, _, rfl⟩ := h.split
    exact List.append_ne_nil_of_right_ne_nil _ (List.cons_ne_nil _ _)
  refine ⟨rfl, place, h.locate_eq, ?_, ?_, h.free, fun other hother => ?_⟩
  · exact (sameWays_set hroot h.free bytes).locate_eq h.locate_eq
  · rw [node_set t hroot, if_pos rfl]
  · rw [node_set t hroot, if_neg hother]

theorem result_replace_eq_ok_iff {names : List String} {path : String}
    {bytes : ByteArray} :
    (t.replace names path bytes).result = .ok () ↔
      (∃ beside, t.newFilePlace (Path.parent path) names = .ok beside) ∧
        ∃ place, t.FilePlace path place := by
  cases hbeside : t.newFilePlace (Path.parent path) names with
  | error why =>
    unfold replace
    dsimp only
    rw [hbeside]
    exact ⟨nofun, nofun⟩
  | ok beside =>
    have hplace : ∀ place, t.FilePlace path place ↔
        (t.set beside (some bytes)).filePlace path = .ok place :=
      fun place => (filePlace_beside_iff hbeside).symm
    rw [replace_eq hbeside]
    simp only [hplace]
    cases (t.set beside (some bytes)).filePlace path with
    | error why => simp
    | ok target => simp

theorem replaces_of_ok {names : List String} {path : String}
    {bytes : ByteArray} (h : (t.replace names path bytes).result = .ok ()) :
    t.Replaces (t.replace names path bytes).tree path bytes := by
  obtain ⟨⟨beside, hbeside⟩, place, hplace⟩ := result_replace_eq_ok_iff.1 h
  rw [replace_eq hbeside, (filePlace_beside_iff hbeside).2 hplace]
  exact hplace.replaces bytes

end FileTree

end ZoneTables
