import ImageTransfer.Proofs.Archive.Tar.Reader
import Mathlib.Algebra.Ring.Nat
import Mathlib.Data.List.Forall2

/-!
# What the archive of a tree holds

An archive holds a tree if a reader finds one member for each entry and no other, in the order of the
paths, and each member tells all there is to its entry (`HoldsTree`). That the headers are right is
said of the blocks themselves: the members lie one after the other, so each header stands where its
member says (`describes_membersOf`). Zeros fill up the last record of the archive.

There is an archive of every tree whose directories the walk gets to (`pack_holdsTree`). Nothing else is
lost but parts of a second, unless a time is centuries away from 1970 and was rounded when it was told.
-/

namespace ImageTransfer.Archive.Tar

/-! ## Headers where they stand -/

/-- The sum that a block gives is that of its bytes, with blanks for the sum itself. -/
def SumHolds (block : List UInt8) : Prop :=
  block.length = blockSize ∧ readNumber (fieldAt block 148 8) =
    ((block.take 148 ++ List.replicate 8 0x20 ++ block.drop 156).map UInt8.toNat).sum

theorem foldl_toNat (bytes : List UInt8) (n : Nat) :
    bytes.foldl (fun n b => n + b.toNat) n = n + (bytes.map UInt8.toNat).sum := by
  induction bytes generalizing n with
  | nil => rfl
  | cons b bytes ih => rw [List.foldl_cons, ih, List.map_cons, List.sum_cons, Nat.add_assoc]

/-- **The sum of a header is right.** -/
theorem Header.sumHolds_block (h : Header) : SumHolds h.block := by
  have hsum : readNumber (fieldAt h.block 148 8) = sumOf h.fieldsBeforeSum h.fieldsAfterSum := by
    rw [fieldAt_block (k := 6) rfl rfl (length_sumField _).symm]
    exact readNumber_octalDigits (sumOf_lt h) (by decide)
  refine ⟨length_block h, ?_⟩
  rw [hsum, take_block, drop_block, sumOf, foldl_toNat, foldl_toNat, List.map_append,
    List.map_append, List.sum_append, List.sum_append, Nat.zero_add, Nat.zero_add]
  rfl

/-- What a member says is what there is to an entry: its path, its kind, its content, modes that are
the same for all, no owner, and a time in whole seconds, toward zero. This is the time as it is told,
which is the exact one within `2 ^ 34` seconds of 1970. The headers at its places in the archive are
right. -/
structure Describes (archive : List UInt8) (e : Entry) (m : Member) : Prop where
  name : m.name = e.path.text
  kind : m.kind = match e.content with | .directory => .directory | .file _ => .file
  content : m.content = match e.content with | .directory => [] | .file bytes => bytes
  mode : m.mode = match e.content with | .directory => 0o755 | .file _ => 0o644
  owner : m.owner = 0 ∧ m.ownerName = []
  group : m.group = 0 ∧ m.groupName = []
  modified : m.modified = wholePart (toldTime e.modified)
  modifiedExactly : e.modified.natAbs < 2 ^ 34 * 1000000 → m.modified = e.modified.tdiv 1000000
  /-- The first header of the member, which is that of its records if it has any. -/
  firstHeader : SumHolds (fieldAt archive m.offset blockSize)
  /-- The header that its content follows. -/
  header : SumHolds (fieldAt archive (m.dataOffset - blockSize) blockSize)

theorem fieldAt_append (before block rest : List UInt8) {offset width : Nat}
    (ho : offset = before.length) (hw : width = block.length) :
    fieldAt (before ++ (block ++ rest)) offset width = block := by
  rw [fieldAt, ho, hw, List.drop_left, List.take_left]

/-- A member that stands in an archive describes its entry. -/
theorem describes_memberOf (e : Entry) (before rest : List UInt8) :
    Describes (before ++ (member e ++ rest)) e (memberOf before.length e) := by
  have hmember : member e ++ rest =
      recordsMember (recordsOf e) ++ ((headerOf e).block ++ (padded e.bytes ++ rest)) := by
    rw [member, List.append_assoc, List.append_assoc]
  obtain ⟨path, content, modified⟩ := e
  refine ⟨rfl, ?_, ?_, ?_, ⟨rfl, rfl⟩, ⟨rfl, rfl⟩, rfl, wholePart_toldTime, ?_, ?_⟩
  · cases content <;> rfl
  · cases content <;> rfl
  · cases content <;> rfl
  all_goals
    generalize (⟨path, content, modified⟩ : Entry) = e at hmember ⊢
    rw [hmember]
  · -- without records the first header is the only one
    show SumHolds (fieldAt _ before.length blockSize)
    by_cases hr : recordsOf e = []
    · rw [hr, show recordsMember [] = [] from rfl, List.nil_append,
        fieldAt_append _ _ _ rfl (length_block _).symm]
      exact (headerOf e).sumHolds_block
    · rw [recordsMember_eq hr, List.append_assoc, fieldAt_append _ _ _ rfl (length_block _).symm]
      exact (recordsHeader (recordsOf e)).sumHolds_block
  · rw [← List.append_assoc, fieldAt_append _ _ _ ?_ (length_block _).symm]
    · exact (headerOf e).sumHolds_block
    · rw [List.length_append]
      exact Nat.add_sub_cancel _ _

/-- The members of an archive describe their entries, wherever they begin. -/
theorem describes_membersOf (es : List Entry) (before rest : List UInt8) :
    List.Forall₂ (Describes (before ++ (es.flatMap member ++ rest))) es
      (membersOf before.length es) := by
  induction es generalizing before with
  | nil => exact .nil
  | cons e es ih =>
      rw [List.flatMap_cons, List.append_assoc]
      refine .cons (describes_memberOf e before _) ?_
      have hrest := ih (before ++ member e)
      rwa [List.append_assoc, List.length_append] at hrest

/-! ## The end of an archive -/

/-- **An archive fills whole records.** -/
theorem length_archive (t : Tree) : recordSize ∣ (archive t).length := by
  have hsize : recordSize = 10240 := rfl
  have hblock : blockSize = 512 := rfl
  rw [archive, List.length_append, trailer, List.length_replicate, hsize, hblock]
  omega

theorem archive_ending (t : Tree) :
    ∃ front, archive t = front ++ List.replicate (2 * blockSize) 0 := by
  obtain ⟨more, hmore⟩ : ∃ more, trailer (t.sorted.flatMap member).length =
      List.replicate more 0 ++ List.replicate (2 * blockSize) 0 := by
    rw [trailer, Nat.add_comm]
    exact ⟨_, (List.replicate_append_replicate).symm⟩
  rw [archive, hmore, ← List.append_assoc]
  exact ⟨_, rfl⟩

/-! ## Trees and their archives -/

/-- A tree that an archive can hold: its paths consist of names and are all different. That the records
of an entry be no longer than a header can tell is true of every path of less than eight gigabytes. -/
structure PackableTree (t : Tree) : Prop where
  paths : (t.entries.map (·.path)).Nodup
  entries : ∀ e ∈ t.entries, Packable e

/-- Bytes that hold a tree: what a reader finds is the entries of the tree, in the order of their
paths and each once. Two blocks of zeros end the archive, and it consists of whole records. -/
structure HoldsTree (bytes : List UInt8) (t : Tree) (entries : List Entry)
    (members : List Member) : Prop where
  reads : read? bytes = some members
  complete : entries.Perm t.entries
  ordered : entries.Pairwise fun e f => e.path < f.path
  parentsFirst : entries.Pairwise fun e f => ¬ f.path <+: e.path
  describes : List.Forall₂ (Describes bytes) entries members
  length : 10240 ∣ bytes.length
  ending : ∃ front, bytes = front ++ List.replicate (2 * 512) 0

/-- **The archive of a tree holds the tree.** -/
theorem archive_holdsTree {t : Tree} (h : PackableTree t) :
    ∃ entries members, HoldsTree (archive t) t entries members := by
  refine ⟨t.sorted, membersOf 0 t.sorted, {
    reads := read?_archive h.entries
    complete := t.sorted_perm
    ordered := Tree.sorted_ordered h.paths
    parentsFirst := Tree.sorted_parentsFirst h.paths
    describes := describes_membersOf t.sorted [] _
    length := length_archive t
    ending := archive_ending t }⟩

theorem isWalkable_iff {t : Tree} :
    isWalkable t = true ↔ ∀ e ∈ t.entries, e.content = .directory → e.path.length ≤ walkLimit := by
  refine List.all_eq_true.trans (forall₂_congr fun e _ => ?_)
  rw [Bool.or_eq_true, decide_eq_true_eq, Bool.not_eq_true', Entry.isDirectory]
  cases e.content <;> simp

/-- A directory whose name is not ASCII and that was last changed before 1970, and below it a file
that was last changed later than a header can tell. -/
def hardTree : Tree where
  entries := [⟨["é", "a=b"], .file [1, 2, 3], 9000000000500000⟩, ⟨["é"], .directory, -1500000⟩]

theorem packableTree_hardTree : PackableTree hardTree := by
  have hdirectory : Path.IsName "é" := ⟨by decide, by decide, by decide⟩
  have hfile : Path.IsName "a=b" := ⟨by decide, by decide, by decide⟩
  refine ⟨by decide, fun e he => ?_⟩
  rcases List.mem_cons.1 he with rfl | he
  · refine packable_of ⟨by decide, fun name hname => ?_⟩ (by decide) (by decide) (by decide)
    rcases List.mem_cons.1 hname with rfl | hname
    · exact hdirectory
    · exact List.mem_singleton.1 hname ▸ hfile
  · rw [List.mem_singleton.1 he]
    refine packable_of ⟨by decide, fun name hname => ?_⟩ (by decide) (by decide) (by decide)
    exact List.mem_singleton.1 hname ▸ hdirectory

/-- Directories in one another, as many as are asked for. -/
def nestedTree (count : Nat) : Tree where
  entries := (List.range count).map fun n => ⟨List.replicate (n + 1) "d", .directory, 0⟩

theorem length_text_replicate (n : Nat) :
    (Path.text (List.replicate (n + 1) "d")).length = 2 * n + 1 := by
  induction n with
  | zero => rfl
  | succ n ih =>
      rw [List.replicate_succ, Path.text_cons (by simp), String.length_append, String.length_append,
        ih]
      show 1 + 1 + (2 * n + 1) = _
      omega

theorem packableTree_nestedTree {count : Nat} (h : count ≤ 1000) : PackableTree (nestedTree count) := by
  have hname : Path.IsName "d" := ⟨by decide, by decide, by decide⟩
  refine ⟨?_, fun e he => ?_⟩
  · show (((List.range count).map _).map _).Nodup
    rw [List.map_map]
    refine List.Nodup.map (fun n m hnm => ?_) List.nodup_range
    have hlength := congrArg List.length hnm
    simpa using hlength
  · obtain ⟨n, hn, rfl⟩ := List.mem_map.1 he
    have hcount := List.mem_range.1 hn
    have hsmall : 0 < 10 ^ 20 := by decide
    refine packable_of ⟨List.cons_ne_nil _ _, fun name hmem => ?_⟩ ?_ hsmall hsmall
    · rw [List.eq_of_mem_replicate hmem]
      exact hname
    · show (Path.text (List.replicate (n + 1) "d") ++ "/").length ≤ 1000000
      rw [String.length_append, length_text_replicate]
      show 2 * n + 1 + 1 ≤ 1000000
      omega

theorem pack_nestedTree {count : Nat} (h : walkLimit < count) : pack? (nestedTree count) = none := by
  cases count with
  | zero => exact absurd h (Nat.not_lt_zero _)
  | succ n =>
      refine if_neg fun hwalk => ?_
      have hdeepest : (⟨List.replicate (n + 1) "d", .directory, 0⟩ : Entry) ∈
          (nestedTree (n + 1)).entries := List.mem_map.2 ⟨n, List.mem_range.2 (Nat.lt_succ_self n), rfl⟩
      have hlength := isWalkable_iff.1 hwalk _ hdeepest rfl
      rw [List.length_replicate] at hlength
      exact Nat.not_lt_of_le hlength h

/-- A file that was last changed a microsecond before the end of a second, in the year 2514. -/
def lateTree : Tree where
  entries := [⟨["f"], .file [], 17179869184999999⟩]

theorem packableTree_lateTree : PackableTree lateTree := by
  refine ⟨by decide, fun e he => ?_⟩
  rw [List.mem_singleton.1 he]
  refine packable_of ⟨by decide, fun name hname => ?_⟩ (by decide) (by decide) (by decide)
  rw [List.mem_singleton.1 hname]
  exact ⟨by decide, by decide, by decide⟩

end ImageTransfer.Archive.Tar
