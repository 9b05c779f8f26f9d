import ImageTransfer.Archive.Tree

/-!
# Paths as text, and their order

A path can be told from its text if its names are names: not empty, and without slashes. Archives
cannot hold zero bytes in names either. Entries are packed in the order of their lists of names, which
is not the order of their texts: a directory comes before all that is below it.
-/

namespace ImageTransfer.Archive

namespace Path

/-- What a file or a directory may be named. -/
def IsName (name : String) : Prop := name ≠ "" ∧ '/' ∉ name.toList ∧ '\x00' ∉ name.toList

/-- A path of something below a root. -/
structure Sound (p : Path) : Prop where
  ne_nil : p ≠ []
  isName : ∀ name ∈ p, IsName name

@[simp] theorem text_singleton (name : String) : text [name] = name := by
  rw [text, String.intercalate_singleton]

theorem text_cons {name : String} {p : Path} (hp : p ≠ []) : text (name :: p) = name ++ "/" ++ text p :=
  String.intercalate_cons_of_ne_nil hp

/-- The characters of a path are those of its names, and slashes. -/
theorem mem_text {p : Path} {c : Char} (h : c ∈ p.text.toList) :
    c = '/' ∨ ∃ name ∈ p, c ∈ name.toList := by
  induction p with
  | nil => exact absurd h (by simp [text])
  | cons name p ih =>
      by_cases hp : p = []
      · rw [hp, text_singleton] at h
        exact .inr ⟨name, List.mem_cons_self, h⟩
      · rw [text_cons hp, String.toList_append, String.toList_append, List.mem_append,
          List.mem_append] at h
        rcases h with (h | h) | h
        · exact .inr ⟨name, List.mem_cons_self, h⟩
        · exact .inl (List.mem_singleton.1 h)
        · rcases ih h with hc | ⟨other, hmem, hc⟩
          · exact .inl hc
          · exact .inr ⟨other, List.mem_cons_of_mem _ hmem, hc⟩

theorem Sound.zero_not_mem {p : Path} (hp : p.Sound) : '\x00' ∉ p.text.toList := by
  intro h
  rcases mem_text h with hc | ⟨name, hmem, hc⟩
  · exact absurd hc (by decide)
  · exact (hp.isName name hmem).2.2 hc

/-- The text of a path ends in a character of its last name, so in no slash. -/
theorem Sound.getLast? {p : Path} (hp : p.Sound) : ∃ c, p.text.toList.getLast? = some c ∧ c ≠ '/' := by
  obtain ⟨hnil, hnames⟩ := hp
  induction p with
  | nil => exact absurd rfl hnil
  | cons name p ih =>
      by_cases hp : p = []
      · obtain ⟨hne, hslash, _⟩ := hnames name List.mem_cons_self
        have hlist : name.toList ≠ [] := fun h => hne (String.toList_eq_nil_iff.1 h)
        rw [hp, text_singleton]
        refine ⟨name.toList.getLast hlist, List.getLast?_eq_some_getLast hlist, fun h => hslash ?_⟩
        exact h ▸ List.getLast_mem hlist
      · obtain ⟨c, hc, hne⟩ := ih hp fun n hn => hnames n (List.mem_cons_of_mem _ hn)
        refine ⟨c, ?_, hne⟩
        rw [text_cons hp, String.toList_append, List.getLast?_append, hc]
        rfl

/-- **A path is told by its text.** -/
theorem text_inj {p q : Path} (hp : p.Sound) (hq : q.Sound) (h : p.text = q.text) : p = q := by
  -- a path is what is left if its text is split at the slashes
  have hsplit : ∀ {p : Path}, p.Sound → (p.text.toList.splitOn '/').map String.ofList = p := by
    intro p hp
    have hnames : ∀ cs ∈ p.map String.toList, '/' ∉ cs := by
      intro cs hcs
      obtain ⟨name, hmem, rfl⟩ := List.mem_map.1 hcs
      exact (hp.isName name hmem).2.1
    rw [text, String.toList_intercalate]
    refine (congrArg (List.map String.ofList) (List.splitOn_intercalate '/' hnames ?_)).trans ?_
    · exact fun hnil => hp.ne_nil (List.map_eq_nil_iff.1 hnil)
    · rw [List.map_map]
      exact (List.map_congr_left fun name _ => String.ofList_toList).trans (List.map_id p)
  rw [← hsplit hp, h, hsplit hq]

/-! ## The order of paths -/

/-- Paths come before one another as their lists of names do. -/
theorem before_iff {p q : Path} : p.before q = true ↔ ¬ q < p := by
  induction p generalizing q with
  | nil => exact ⟨fun _ => List.not_lt_nil q, fun _ => rfl⟩
  | cons a p ih =>
      cases q with
      | nil => exact ⟨nofun, fun h => absurd (List.nil_lt_cons a p) h⟩
      | cons b q =>
          rw [before, Bool.or_eq_true, Bool.and_eq_true, beq_iff_eq, decide_eq_true_eq, ih,
            List.cons_lt_cons_iff, not_or, not_and]
          constructor
          · rintro (hlt | ⟨rfl, hq⟩)
            · exact ⟨String.lt_asymm hlt, fun heq => absurd (heq ▸ hlt) (String.lt_irrefl _)⟩
            · exact ⟨String.lt_irrefl a, fun _ => hq⟩
          · rintro ⟨hle, hq⟩
            by_cases heq : a = b
            · exact .inr ⟨heq, hq heq.symm⟩
            · refine .inl (Decidable.byContradiction fun hlt => heq ?_)
              exact String.le_antisymm (String.not_lt.1 hle) (String.not_lt.1 hlt)

end Path

namespace Tree

/-- The order of its entries is all that packing changes in a tree. -/
theorem sorted_perm (t : Tree) : t.sorted.Perm t.entries := List.mergeSort_perm _ _

theorem sorted_before (t : Tree) : t.sorted.Pairwise fun e f => e.path.before f.path = true := by
  refine List.pairwise_mergeSort (fun a b c hab hbc => ?_) (fun a b => ?_) t.entries
  · rw [Path.before_iff] at *
    exact List.not_lt.2 (List.le_trans (List.not_lt.1 hab) (List.not_lt.1 hbc))
  · rw [Bool.or_eq_true, Path.before_iff, Path.before_iff]
    exact (List.le_total a.path b.path).imp List.not_lt.2 List.not_lt.2

/-- **The entries are packed in the order of their paths**, no two of which are the same. -/
theorem sorted_ordered {t : Tree} (h : (t.entries.map (·.path)).Nodup) :
    t.sorted.Pairwise fun e f => e.path < f.path := by
  have hpaths := ((t.sorted_perm.map (·.path)).nodup_iff.2 h)
  rw [List.Nodup, List.pairwise_map] at hpaths
  refine (t.sorted_before.and hpaths).imp fun ⟨hbefore, hne⟩ => ?_
  refine Decidable.byContradiction fun hlt => hne ?_
  exact List.le_antisymm (List.not_lt.1 (Path.before_iff.1 hbefore)) (List.not_lt.1 hlt)

/-- **A directory is packed before what it contains.** -/
theorem sorted_parentsFirst {t : Tree} (h : (t.entries.map (·.path)).Nodup) :
    t.sorted.Pairwise fun e f => ¬ f.path <+: e.path := by
  refine (sorted_ordered h).imp fun hlt hprefix => ?_
  exact List.not_lt.2 (List.IsPrefix.le hprefix) hlt

end Tree

end ImageTransfer.Archive
