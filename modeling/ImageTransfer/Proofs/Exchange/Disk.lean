import ImageTransfer.Proofs.Exchange.Reports

/-!
# What operations leave on the disk

An operation that works in a directory of its own changes what is in there and nothing else. The
disk without that directory is what says so: `Disk.remove` forgets a change below a path, so a run
keeps to the frame `inside p` if its changes do (`inside_storing`). A directory to work in is new,
so when it is gone in the end the disk is the one from before (`remove_of_within`).
-/

namespace ImageTransfer

namespace Disk

variable {p q source target : Archive.Path}

theorem Entry.isWithin_iff {e : Entry} : e.isWithin p = true ↔ p <+: e.path := by
  rw [Entry.isWithin, List.isPrefixOf_iff_prefix]

theorem Entry.isWithin_of_prefix {e : Entry} (h : p <+: q) (he : e.isWithin q = true) :
    e.isWithin p = true := isWithin_iff.2 (h.trans (isWithin_iff.1 he))

/-- Nothing is within a path that the disk has not. -/
theorem not_isWithin_of_has {d : Disk} (h : d.has p = false) {e : Entry} (he : e ∈ d.entries) :
    e.isWithin p = false := by
  rw [has, List.any_eq_false] at h
  simpa using h e he

theorem remove_of_not_has {d : Disk} (h : d.has p = false) : d.remove p = d := by
  rw [remove, List.filter_eq_self.2]
  intro e he
  rw [not_isWithin_of_has h he]
  rfl

/-! ## Changes that a removal forgets -/

/-- A change of entries that only concerns those within a path. -/
theorem remove_map (d : Disk) {f : Entry → Entry}
    (hf : ∀ e : Entry, f e = e ∨ (e.isWithin p = true ∧ (f e).isWithin p = true)) :
    (⟨d.entries.map f⟩ : Disk).remove p = d.remove p := by
  obtain ⟨entries⟩ := d
  show (⟨_⟩ : Disk) = ⟨_⟩
  congr 1
  show (entries.map f).filter _ = entries.filter _
  induction entries with
  | nil => rfl
  | cons e entries ih =>
      rw [List.map_cons, List.filter_cons, List.filter_cons, ih]
      rcases hf e with h | ⟨h, h'⟩
      · rw [h]
      · rw [h, h']
        rfl

theorem remove_makeDirectory (d : Disk) (h : p <+: q) : (d.makeDirectory q).remove p = d.remove p := by
  have hq : (⟨q, .directory, 0⟩ : Entry).isWithin p = true := Entry.isWithin_iff.2 h
  simp [remove, makeDirectory, List.filter_append, hq]

theorem remove_createFile (d : Disk) (h : p <+: q) : (d.createFile q).remove p = d.remove p := by
  have hq : (⟨q, .file #[] 0, 0⟩ : Entry).isWithin p = true := Entry.isWithin_iff.2 h
  -- what was at the path is within `p` too, so the removal takes it as well
  have hother : ∀ e : Entry, (!e.isWithin p && (e.path != q)) = !e.isWithin p := by
    intro e
    by_cases he : e.path = q
    · rw [Entry.isWithin_iff.2 (he ▸ h)]
      rfl
    · simp [he]
  simp [remove, createFile, List.filter_append, hq, List.filter_filter, hother]

theorem remove_appendFile (d : Disk) (h : p <+: q) (piece : List UInt8) :
    (d.appendFile q piece).remove p = d.remove p := by
  refine d.remove_map fun e => ?_
  by_cases he : e.path = q
  · have hwithin : e.isWithin p = true := Entry.isWithin_iff.2 (he ▸ h)
    right
    rw [if_pos (by simpa using he)]
    exact ⟨hwithin, hwithin⟩
  · left
    rw [if_neg (by simpa using he)]

theorem remove_setModified (d : Disk) (h : p <+: q) (modified : Int) :
    (d.setModified q modified).remove p = d.remove p := by
  refine d.remove_map fun e => ?_
  by_cases he : e.path = q
  · have hwithin : e.isWithin p = true := Entry.isWithin_iff.2 (he ▸ h)
    right
    rw [if_pos (by simpa using he)]
    exact ⟨hwithin, hwithin⟩
  · left
    rw [if_neg (by simpa using he)]

theorem remove_move (d : Disk) (hs : p <+: source) (ht : p <+: target) :
    (d.move source target).remove p = d.remove p := by
  refine d.remove_map fun e => ?_
  cases he : e.isWithin source with
  | false => exact .inl (if_neg (by simp))
  | true =>
      right
      rw [if_pos rfl]
      exact ⟨Entry.isWithin_of_prefix hs he,
        Entry.isWithin_iff.2 (ht.trans (List.prefix_append _ _))⟩

theorem remove_remove (d : Disk) (h : p <+: q) : (d.remove q).remove p = d.remove p := by
  have hother : ∀ e : Entry, (!e.isWithin p && !e.isWithin q) = !e.isWithin p := by
    intro e
    cases hq : e.isWithin q with
    | false => simp
    | true => simp [Entry.isWithin_of_prefix h hq]
  simp [remove, List.filter_filter, hother]

/-! ## What is added to a disk -/

/-- The disk with more on it. -/
def append (d new : Disk) : Disk := ⟨d.entries ++ new.entries⟩

variable {d new : Disk}

theorem append_empty (d : Disk) : d.append empty = d := by
  obtain ⟨entries⟩ := d
  exact congrArg Disk.mk (List.append_nil entries)

theorem append_append (d new new' : Disk) : (d.append new).append new' = d.append (new.append new') :=
  congrArg Disk.mk (List.append_assoc _ _ _)

theorem has_append : (d.append new).has p = (d.has p || new.has p) := List.any_append

/-- What is free is free below it too. -/
theorem has_of_prefix (h : p <+: q) (hp : d.has p = false) : d.has q = false := by
  rw [has, List.any_eq_false]
  intro e he hq
  have := not_isWithin_of_has hp he
  rw [Entry.isWithin_of_prefix h hq] at this
  exact absurd this (by decide)

theorem makeDirectory_eq (d : Disk) (p : Archive.Path) :
    d.makeDirectory p = d.append ⟨[⟨p, .directory, 0⟩]⟩ := rfl

/-- A change of entries within a path that the disk has not changes only what was added. -/
theorem append_map {f : Entry → Entry} (h : d.has p = false)
    (hf : ∀ e : Entry, e.isWithin p = false → f e = e) :
    (⟨(d.append new).entries.map f⟩ : Disk) = d.append ⟨new.entries.map f⟩ := by
  have hd : d.entries.map f = d.entries := by
    refine (List.map_congr_left fun e he => ?_).trans (List.map_id _)
    exact hf e (not_isWithin_of_has h he)
  show (⟨(d.entries ++ new.entries).map f⟩ : Disk) = ⟨d.entries ++ new.entries.map f⟩
  rw [List.map_append, hd]

theorem ne_of_not_isWithin {e : Entry} (h : e.isWithin p = false) : e.path ≠ p := by
  intro he
  rw [Entry.isWithin_iff.2 (he ▸ List.prefix_refl _)] at h
  exact absurd h (by decide)

theorem append_appendFile (h : d.has p = false) (piece : List UInt8) :
    (d.append new).appendFile p piece = d.append (new.appendFile p piece) :=
  append_map h fun _ he => if_neg (by simpa using ne_of_not_isWithin he)

theorem append_setModified (h : d.has p = false) (modified : Int) :
    (d.append new).setModified p modified = d.append (new.setModified p modified) :=
  append_map h fun _ he => if_neg (by simpa using ne_of_not_isWithin he)

theorem append_move (h : d.has source = false) :
    (d.append new).move source target = d.append (new.move source target) :=
  append_map h fun _ he => if_neg (by simp [he])

theorem append_remove (h : d.has p = false) : (d.append new).remove p = d.append (new.remove p) := by
  have hd : d.entries.filter (!·.isWithin p) = d.entries :=
    congrArg Disk.entries (remove_of_not_has h)
  show (⟨(d.entries ++ new.entries).filter _⟩ : Disk) = ⟨d.entries ++ new.entries.filter _⟩
  rw [List.filter_append, hd]

/-- A file of these writes, and nothing else. -/
def file (p : Archive.Path) (writes : Array (List UInt8)) (modified : Int) : Disk :=
  ⟨[⟨p, .file writes writes.toList.flatten.length, modified⟩]⟩

theorem appendFile_file (p : Archive.Path) (writes : Array (List UInt8)) (modified : Int)
    (piece : List UInt8) :
    (file p writes modified).appendFile p piece = file p (writes.push piece) modified := by
  simp [file, appendFile, Content.append]

theorem setModified_file (p : Archive.Path) (writes : Array (List UInt8)) (modified later : Int) :
    (file p writes modified).setModified p later = file p writes later := by
  simp [file, setModified]

theorem sizeOf_append_file (h : d.has p = false) (writes : Array (List UInt8)) (modified : Int) :
    (d.append (file p writes modified)).sizeOf p = writes.toList.flatten.length := by
  have hd : d.entries.find? (·.path == p) = none := by
    refine List.find?_eq_none.2 fun e he => ?_
    simpa using ne_of_not_isWithin (not_isWithin_of_has h he)
  have hfind : (d.append (file p writes modified)).entries.find? (·.path == p) =
      some ⟨p, .file writes writes.toList.flatten.length, modified⟩ := by
    show (d.entries ++ _).find? _ = _
    rw [List.find?_append, hd]
    simp [file]
  rw [sizeOf, hfind]
  rfl

theorem createFile_of_not_has (h : d.has p = false) :
    d.createFile p = d.append (file p #[] 0) := by
  have hd : d.entries.filter (·.path != p) = d.entries := by
    refine List.filter_eq_self.2 fun e he => ?_
    simpa using ne_of_not_isWithin (not_isWithin_of_has h he)
  show (⟨d.entries.filter _ ++ _⟩ : Disk) = ⟨d.entries ++ _⟩
  rw [hd]
  rfl

/-- What was added to a disk that has nothing at a path is what is below the path. -/
theorem below_append (h : d.has p = false) : (d.append new).below p = new.below p := by
  have hd : ∀ f : Entry → Archive.Entry, d.entries.filterMap (fun e =>
      if e.isWithin p && e.path != p then some (f e) else none) = [] := by
    intro f
    refine List.filterMap_eq_nil_iff.2 fun e he => if_neg ?_
    simp [not_isWithin_of_has h he]
  show (⟨(d.entries ++ new.entries).filterMap _⟩ : Archive.Tree) = ⟨new.entries.filterMap _⟩
  rw [List.filterMap_append, hd, List.nil_append]

/-- Nothing is in a directory that was just made. -/
theorem has_makeDirectory (d : Disk) (p : Archive.Path) (name : String) :
    (d.makeDirectory p).has (p ++ [name]) = d.has (p ++ [name]) := by
  have hlonger : (p ++ [name]).isPrefixOf p = false := by
    rw [Bool.eq_false_iff, Ne, List.isPrefixOf_iff_prefix]
    intro hp
    have := hp.length_le
    rw [List.length_append] at this
    exact absurd this (Nat.not_succ_le_self _)
  rw [makeDirectory_eq, has_append]
  simp [has, Entry.isWithin, hlonger]

/-- A directory that was just made holds what was added to it. -/
theorem below_makeDirectory (h : d.has p = false) :
    ((d.makeDirectory p).append new).below p = new.below p := by
  rw [makeDirectory_eq, append_append, below_append h]
  show (⟨(_ :: new.entries).filterMap _⟩ : Archive.Tree) = _
  rw [List.filterMap_cons_none]
  · rfl
  · simp

/-- What is on a disk, at the same places below a path. -/
def under (p : Archive.Path) (d : Disk) : Disk :=
  ⟨d.entries.map fun e => ⟨p ++ e.path, e.content, e.modified⟩⟩

theorem under_append (p : Archive.Path) (d new : Disk) :
    (d.append new).under p = (d.under p).append (new.under p) :=
  congrArg Disk.mk List.map_append

theorem isPrefixOf_append (p q r : Archive.Path) :
    (p ++ q).isPrefixOf (p ++ r) = q.isPrefixOf r := by
  rw [Bool.eq_iff_iff, List.isPrefixOf_iff_prefix, List.isPrefixOf_iff_prefix,
    List.prefix_append_right_inj]

theorem has_under (p q : Archive.Path) (d : Disk) : (d.under p).has (p ++ q) = d.has q := by
  obtain ⟨entries⟩ := d
  simp only [has, under, List.any_map, Function.comp_def, Entry.isWithin, isPrefixOf_append]

theorem under_file (p q : Archive.Path) (writes : Array (List UInt8)) (modified : Int) :
    (file q writes modified).under p = file (p ++ q) writes modified := rfl

theorem has_file (name other : String) (writes : Array (List UInt8)) (modified : Int) :
    (file [name] writes modified).has [other] = (other == name) := by
  simp [file, has, Entry.isWithin, List.isPrefixOf]

theorem below_under (p : Archive.Path) (d : Disk) : (d.under p).below p = d.below [] := by
  obtain ⟨entries⟩ := d
  simp only [below, under, List.filterMap_map, Function.comp_def]
  congr 2
  funext e
  have hwithin : p.isPrefixOf (p ++ e.path) = true :=
    List.isPrefixOf_iff_prefix.2 (List.prefix_append _ _)
  simp [Entry.isWithin, hwithin]

end Disk

/-- The last change of the disk that was asked for was refused. -/
def World.IsDenied (w : World) : Prop := ∃ n, w.changes = n + 1 ∧ (w.refusal? n).isSome = true

namespace Exchange

variable {α : Type} {w w' : World} {p : Archive.Path}

/-- Between two worlds the disk may have changed, and what the machine counts: nothing was said or
reported, and nothing was written out. -/
structure Private (w w' : World) : Prop where
  speech : Speech w [] w'
  sink : w'.sink = w.sink
  session : w'.hasSession = w.hasSession

theorem Private.refl (w : World) : Private w w := ⟨.refl w, rfl, rfl⟩

theorem Private.trans {u v w : World} (h₁ : Private u v) (h₂ : Private v w) : Private u w :=
  ⟨h₁.speech.trans h₂.speech, h₂.sink.trans h₁.sink, h₂.session.trans h₁.session⟩

theorem Private.talk (h : Private w w') : Talk w [] w' := h.speech.talk

theorem changeDisk_run (f : Disk → Disk) (w : World) :
    changeDisk f w =
      match w.refusal? w.changes with
      | some reason => (.error (Failure.system reason), { w with changes := w.changes + 1 })
      | none => (.ok (), { w with changes := w.changes + 1, disk := f w.disk }) := by
  show (match (w.change f).1 with
    | some reason => (throw (Failure.system reason) : Exchange Unit)
    | none => pure ()) (w.change f).2 = _
  unfold World.change
  cases w.refusal? w.changes <;> rfl

/-- A change of the disk is made, or refused. -/
theorem changeDisk_cases {f : Disk → Disk} {r : Except Failure Unit}
    (h : changeDisk f w = (r, w')) :
    Private w w' ∧ ((r = .ok () ∧ w'.disk = f w.disk) ∨
      ((∃ reason, r = .error (.system reason)) ∧ w'.disk = w.disk)) := by
  rw [changeDisk_run] at h
  split at h
  · obtain ⟨rfl, rfl⟩ := Prod.mk.inj h
    exact ⟨⟨.of_eq rfl rfl rfl, rfl, rfl⟩, .inr ⟨⟨_, rfl⟩, rfl⟩⟩
  · obtain ⟨rfl, rfl⟩ := Prod.mk.inj h
    exact ⟨⟨.of_eq rfl rfl rfl, rfl, rfl⟩, .inl ⟨rfl, rfl⟩⟩

theorem isDenied_of_changeDisk {f : Disk → Disk} {e : Failure}
    (h : changeDisk f w = (.error e, w')) : w'.IsDenied := by
  rw [changeDisk_run] at h
  split at h
  · rename_i reason hreason
    obtain ⟨_, rfl⟩ := Prod.mk.inj h
    exact ⟨w.changes, rfl, by rw [hreason]; rfl⟩
  · exact absurd (Prod.mk.inj h).1 nofun

/-- A change that is not refused says nothing. -/
theorem changeDisk_ok {f : Disk → Disk} (h : changeDisk f w = (.ok (), w')) :
    Talk w [] w' ∧ w'.disk = f w.disk := by
  obtain ⟨hp, ⟨_, hd⟩ | ⟨⟨reason, he⟩, _⟩⟩ := changeDisk_cases h
  · exact ⟨hp.talk, hd⟩
  · exact absurd he nofun

theorem isStored_inv {r : Except Failure Bool} (h : isStored p w = (r, w')) :
    r = .ok (w.disk.has p) ∧ w' = w := by
  obtain ⟨rfl, rfl⟩ := Prod.mk.inj h
  exact ⟨rfl, rfl⟩

/-- **A directory that is made is new.** -/
theorem newDirectory_cases {parent : Archive.Path} {beginning : String} {attempts : Nat}
    {w w' : World} {r : Except Failure Archive.Path}
    (h : newDirectory parent beginning attempts w = (r, w')) :
    Private w w' ∧
      ((∃ name path, path = parent ++ [beginning ++ name] ∧ r = .ok path ∧
          w.disk.has path = false ∧ w'.disk = w.disk.makeDirectory path) ∨
        ((∃ reason, r = .error (.system reason)) ∧ w'.disk = w.disk)) := by
  induction attempts generalizing w with
  | zero =>
      obtain ⟨rfl, rfl⟩ := throw_inv h
      exact ⟨.refl _, .inr ⟨⟨_, rfl⟩, rfl⟩⟩
  | succ attempts ih =>
      have hnext : Private w { w with named := w.named + 1 } := ⟨.of_eq rfl rfl rfl, rfl, rfl⟩
      obtain ⟨name, w₁, hname, h⟩ | ⟨e, hname, _⟩ := bind_cases h
      · obtain ⟨hok, rfl⟩ := Prod.mk.inj hname
        obtain ⟨stored, w₂, hstored, h⟩ | ⟨e, hstored, _⟩ := bind_cases h
        · obtain ⟨hs, rfl⟩ := isStored_inv hstored
          cases hs
          split at h
          · -- the name is taken, and the next one is tried
            obtain ⟨hp, hr⟩ := ih h
            exact ⟨hnext.trans hp, hr⟩
          · rename_i hfree
            obtain ⟨_, w₃, hmake, h⟩ | ⟨e, hmake, rfl⟩ := bind_cases h
            · obtain ⟨hp, ⟨_, hd⟩ | ⟨⟨_, he⟩, _⟩⟩ := changeDisk_cases hmake
              · obtain ⟨rfl, rfl⟩ := pure_inv h
                exact ⟨hnext.trans hp, .inl ⟨name, _, rfl, rfl, by simpa using hfree, hd⟩⟩
              · exact absurd he (by simp)
            · obtain ⟨hp, ⟨he, _⟩ | ⟨⟨reason, he⟩, hd⟩⟩ := changeDisk_cases hmake
              · exact absurd he (by simp)
              · cases he
                exact ⟨hnext.trans hp, .inr ⟨⟨reason, rfl⟩, hd⟩⟩
        · exact absurd (isStored_inv hstored).1 (by simp)
      · exact absurd (Prod.mk.inj hname).1 (by simp)

/-! ## Files -/

/-- A file that is not too large. -/
def Fits (writes : Array (List UInt8)) : Prop := writes.toList.flatten.length ≤ Disk.fileLimit

theorem hasRoom_inv {count : Nat} {r : Except Failure Bool} (h : hasRoom p count w = (r, w')) :
    r = .ok (decide (w.disk.sizeOf p + count ≤ Disk.fileLimit)) ∧ w' = w := by
  obtain ⟨rfl, rfl⟩ := Prod.mk.inj h
  exact ⟨rfl, rfl⟩

/-- Nothing but the machine keeps a file from growing, or the size that the file would have. -/
theorem appendFile_cases {piece : List UInt8} {r : Except Failure Unit}
    (h : appendFile p piece w = (r, w')) :
    r = .ok () ∨ ∃ e, r = .error e ∧
      (w'.IsDenied ∨ Disk.fileLimit < w.disk.sizeOf p + piece.length) := by
  unfold appendFile at h
  split at h
  · exact .inl (pure_inv h).1
  · rcases bind_cases h with ⟨room, w₁, hroom, h⟩ | ⟨e, hroom, _⟩
    · obtain ⟨hr, rfl⟩ := hasRoom_inv hroom
      cases hr
      split at h
      · cases r with
        | ok a => exact .inl rfl
        | error e => exact .inr ⟨e, rfl, .inl (isDenied_of_changeDisk h)⟩
      · rename_i hfull
        refine .inr ⟨_, (throw_inv h).1, .inr ?_⟩
        simpa using hfull
    · exact absurd (hasRoom_inv hroom).1 nofun

/-- **A file grows by what is added to it.** -/
theorem appendFile_ok {d : Disk} {writes : Array (List UInt8)} {modified : Int} {piece : List UInt8}
    (hd : d.has p = false) (hw : w.disk = d.append (.file p writes modified)) (hfits : Fits writes)
    (h : appendFile p piece w = (.ok (), w')) :
    Talk w [] w' ∧ ∃ writes', Fits writes' ∧ writes'.toList.flatten = writes.toList.flatten ++ piece ∧
      w'.disk = d.append (.file p writes' modified) := by
  unfold appendFile at h
  split at h
  · rename_i hempty
    obtain ⟨_, rfl⟩ := pure_inv h
    refine ⟨.refl _, writes, hfits, ?_, hw⟩
    rw [List.isEmpty_iff.1 hempty, List.append_nil]
  · obtain ⟨room, w₁, hroom, h⟩ := bind_ok h
    obtain ⟨hr, rfl⟩ := hasRoom_inv hroom
    cases hr
    split at h
    · rename_i hle
      obtain ⟨ht, hdisk⟩ := changeDisk_ok h
      have hflat : (writes.push piece).toList.flatten = writes.toList.flatten ++ piece := by simp
      refine ⟨ht, writes.push piece, ?_, hflat, ?_⟩
      · rw [decide_eq_true_eq, hw, Disk.sizeOf_append_file hd] at hle
        rw [Fits, hflat, List.length_append]
        exact hle
      · rw [hdisk, hw, Disk.append_appendFile hd, Disk.appendFile_file]
    · exact absurd (throw_inv h).1 nofun

/-- A file is stored where there was nothing. -/
theorem storeFile_ok {bytes : List UInt8} {modified : Int} (hfree : w.disk.has p = false)
    (h : storeFile p bytes modified w = (.ok (), w')) :
    Talk w [] w' ∧ ∃ writes, Fits writes ∧ writes.toList.flatten = bytes ∧
      w'.disk = w.disk.append (.file p writes modified) := by
  obtain ⟨_, w₁, hcreate, h⟩ := bind_ok h
  obtain ⟨ht₁, hd₁⟩ := changeDisk_ok hcreate
  rw [Disk.createFile_of_not_has hfree] at hd₁
  obtain ⟨_, w₂, happend, h⟩ := bind_ok h
  obtain ⟨ht₂, writes, hfits, hbytes, hd₂⟩ := appendFile_ok hfree hd₁ (Nat.zero_le _) happend
  obtain ⟨ht₃, hd₃⟩ := changeDisk_ok h
  refine ⟨(ht₁.trans ht₂).trans ht₃, writes, hfits, hbytes, ?_⟩
  rw [hd₃, hd₂, Disk.append_setModified hfree, Disk.setModified_file]

/-- A new directory, where there was nothing. -/
theorem newDirectory_ok {parent path : Archive.Path} {beginning : String} {attempts : Nat}
    (h : newDirectory parent beginning attempts w = (.ok path, w')) :
    Talk w [] w' ∧ ∃ name, path = parent ++ [beginning ++ name] ∧ w.disk.has path = false ∧
      w'.disk = w.disk.makeDirectory path := by
  obtain ⟨hp, ⟨name, _, rfl, hok, hfree, hd⟩ | ⟨⟨e, he⟩, _⟩⟩ := newDirectory_cases h
  · cases hok
    exact ⟨hp.talk, name, rfl, hfree, hd⟩
  · exact absurd he nofun

/-! ## Frames -/

/-- Nothing is written out, and only what is within a path changes on the disk. -/
def inside (p : Archive.Path) : Frame where
  rel w w' := w'.sink = w.sink ∧ w'.disk.remove p = w.disk.remove p
  refl _ := ⟨rfl, rfl⟩
  trans h₁ h₂ := ⟨h₂.1.trans h₁.1, h₂.2.trans h₁.2⟩

theorem inside_of_untouched (h : Untouched w w') : (inside p).rel w w' :=
  ⟨h.sink, by rw [h.disk]⟩

instance inside_hears {listens : Bool} : (inside p).Hears listens :=
  ⟨fun _ w _ _ _ => inside_of_untouched (.note w _)⟩

theorem inside_online : (inside p).Online where
  note w e he := inside_of_untouched (untouched_online.note w e he)
  session w timeout h := inside_of_untouched (untouched_online.session w timeout h)
  send q w := inside_of_untouched (untouched_online.send q w)

/-- A frame that does not mind what is stored within a path. -/
structure Frame.Storing (F : Frame) (p : Archive.Path) : Prop where
  change : ∀ {f : Disk → Disk}, (∀ d : Disk, (f d).remove p = d.remove p) → Keeps F (changeDisk f)
  naming : Keeps F nextName

theorem inside_storing : (inside p).Storing p where
  change hf := keeps_of_rel fun _ _ _ h => by
    obtain ⟨hp, ⟨_, hd⟩ | ⟨_, hd⟩⟩ := changeDisk_cases h
    · exact ⟨hp.sink, by rw [hd, hf]⟩
    · exact ⟨hp.sink, by rw [hd]⟩
  naming _ := ⟨rfl, rfl⟩

theorem silent_storing : silent.Storing p where
  change _ := keeps_of_rel fun _ _ _ h => (changeDisk_cases h).1.talk
  naming _ := .of_eq rfl rfl rfl

theorem talks_storing : talks.Storing p where
  change hf w := ⟨[], silent_storing.change hf w⟩
  naming _ := ⟨[], .of_eq rfl rfl rfl⟩

theorem keeps_isStored {F : Frame} (q : Archive.Path) : Keeps F (isStored q) := fun w => F.refl w

theorem keeps_hasRoom {F : Frame} (q : Archive.Path) (count : Nat) : Keeps F (hasRoom q count) :=
  fun w => F.refl w

namespace Frame.Storing

variable {F : Frame}

theorem and {G : Frame} (hF : F.Storing p) (hG : G.Storing p) : (F.and G).Storing p where
  change hf w := ⟨hF.change hf w, hG.change hf w⟩
  naming w := ⟨hF.naming w, hG.naming w⟩

theorem keeps_appendFile (hF : F.Storing p) {q : Archive.Path} (h : p <+: q) (piece : List UInt8) :
    Keeps F (appendFile q piece) :=
  keeps_ite (keeps_pure ()) <|
    keeps_bind (keeps_hasRoom q _) fun _ =>
      keeps_ite (hF.change fun d => d.remove_appendFile h piece) (keeps_throw _)

theorem keeps_storeFile (hF : F.Storing p) {q : Archive.Path} (h : p <+: q) (bytes : List UInt8)
    (modified : Int) : Keeps F (storeFile q bytes modified) :=
  keeps_bind (hF.change fun d => d.remove_createFile h) fun _ =>
    keeps_bind (hF.keeps_appendFile h bytes) fun _ =>
      hF.change fun d => d.remove_setModified h modified

/-- A new directory in the one that may change. -/
theorem keeps_newDirectory (hF : F.Storing p) (beginning : String) (attempts : Nat) :
    Keeps F (newDirectory p beginning attempts) := by
  induction attempts with
  | zero => exact keeps_throw _
  | succ attempts ih =>
      refine keeps_bind hF.naming fun name => keeps_bind (keeps_isStored _) fun stored => ?_
      exact keeps_ite ih <|
        keeps_bind (hF.change fun d => d.remove_makeDirectory (List.prefix_append _ _)) fun _ =>
          keeps_pure _

end Frame.Storing

namespace Frame.Recording

variable {F : Frame}

theorem storing (hF : F.Recording) : F.Storing p where
  change _ w := by
    show F.rel w (changeDisk _ w).2
    rw [changeDisk_run]
    split <;> exact hF.of_eq rfl rfl
  naming _ := hF.of_eq rfl rfl

theorem keeps_withWorkDirectory (hF : F.Recording) {beginning : String}
    {x : Archive.Path → Exchange α} (hx : ∀ work, Keeps F (x work)) :
    Keeps F (withWorkDirectory beginning x) := by
  have hget : Keeps F (get : Exchange World) := fun w => F.refl w
  refine keeps_bind hget fun w => keeps_bind (hF.storing.keeps_newDirectory _ _) fun work => ?_
  exact keeps_withCleanup (hx work) fun _ => hF.of_eq rfl rfl

end Frame.Recording

/-- A directory to work in is made, or that fails; what is done in it comes in between. -/
theorem withWorkDirectory_cases {beginning : String} {x : Archive.Path → Exchange α}
    {r : Except Failure α} (h : withWorkDirectory beginning x w = (r, w')) :
    (Private w w' ∧ w'.disk = w.disk ∧ ∃ reason, r = .error (.system reason)) ∨
      ∃ work w₁ w₂, Private w w₁ ∧ w.disk.has work = false ∧
        w₁.disk = w.disk.makeDirectory work ∧ x work w₁ = (r, w₂) ∧
        w' = { w₂ with disk := w₂.disk.remove work } := by
  obtain ⟨parent, w₁, hget, h⟩ | ⟨e, hget, _⟩ := bind_cases h
  · obtain ⟨hok, rfl⟩ := Prod.mk.inj hget
    cases hok
    obtain ⟨path, w₂, hnew, h⟩ | ⟨e, hnew, rfl⟩ := bind_cases h
    · obtain ⟨hp, ⟨name, _, rfl, hok, hfree, hd⟩ | ⟨⟨e, he⟩, _⟩⟩ := newDirectory_cases hnew
      · cases hok
        obtain ⟨w₃, hrun, rfl⟩ := withCleanup_inv h
        exact .inr ⟨_, w₂, w₃, hp, hfree, hd, hrun, rfl⟩
      · exact absurd he (by simp)
    · obtain ⟨hp, ⟨name, _, rfl, hok, _⟩ | ⟨⟨reason, he⟩, hd⟩⟩ := newDirectory_cases hnew
      · exact absurd hok (by simp)
      · cases he
        exact .inl ⟨hp, hd, reason, rfl⟩
  · exact absurd (Prod.mk.inj hget).1 (by simp)

/-- **What is done in a directory to work in is gone in the end.** -/
theorem remove_of_within {d d₁ d₂ : Disk} (hfree : d.has p = false)
    (hmade : d₁ = d.makeDirectory p) (hin : d₂.remove p = d₁.remove p) : d₂.remove p = d := by
  rw [hin, hmade, Disk.remove_makeDirectory _ (List.prefix_refl _), Disk.remove_of_not_has hfree]

end Exchange

end ImageTransfer
