import ImageTransfer.Proofs.Archive.FileTime
import ImageTransfer.Proofs.Archive.Tar.Records
import ImageTransfer.Proofs.Archive.Tree

/-!
# Archives are read back

A reader finds in the archive of a tree one member for each entry, in the order of their paths
(`read?_archive`). What a header cannot tell, records before it do: a long name, one that is not
ASCII, a size or a time out of range. Then a member takes two turns of the reader and not one.
-/

namespace ImageTransfer.Archive.Tar

/-! ## What records tell -/

/-- An entry that an archive can hold. -/
structure Packable (e : Entry) : Prop where
  path : e.path.Sound
  /-- What is told of it beside its header. -/
  records : ((recordsOf e).flatMap recordBytes).length < numberLimit

/-- The member that an entry becomes, if its records begin at an offset. -/
def memberOf (offset : Nat) (e : Entry) : Member where
  name := e.path.text
  kind := (headerOf e).kind
  mode := (headerOf e).mode
  owner := 0
  group := 0
  ownerName := []
  groupName := []
  modified := e.seconds
  records := recordsOf e
  content := e.bytes
  offset := offset
  dataOffset := offset + (recordsMember (recordsOf e)).length + blockSize

/-- The members that entries become, one after the other. -/
def membersOf : Nat → List Entry → List Member
  | _, [] => []
  | offset, e :: es => memberOf offset e :: membersOf (offset + (member e).length) es

variable {e : Entry}

theorem keyword_of_mem {r : Record} (h : r ∈ recordsOf e) :
    r.1 = "path" ∨ r.1 = "size" ∨ r.1 = "mtime" := by
  unfold recordsOf at h
  dsimp only at h
  simp only [List.mem_append] at h
  rcases h with (h | h) | h
  · split at h
    · exact absurd h List.not_mem_nil
    · exact .inl (congrArg Prod.fst (List.mem_singleton.1 h))
  · split at h
    · exact absurd h List.not_mem_nil
    · exact .inr (.inl (congrArg Prod.fst (List.mem_singleton.1 h)))
  · split at h
    · exact absurd h List.not_mem_nil
    · exact .inr (.inr (congrArg Prod.fst (List.mem_singleton.1 h)))

theorem readRecords?_recordsOf (e : Entry) {fuel : Nat} (hf : (recordsOf e).length ≤ fuel) :
    readRecords? fuel ((recordsOf e).flatMap recordBytes) = some (recordsOf e) := by
  refine readRecords?_flatMap (fun r hr => ?_) hf
  rcases keyword_of_mem hr with h | h | h <;> rw [h] <;> decide

/-- A record is there for what does not fit. -/
theorem recordValue?_recordsOf (e : Entry) :
    recordValue? (recordsOf e) "path" =
        (if nameFits (memberName e) then none else some (memberName e)) ∧
      recordValue? (recordsOf e) "size" =
        (if sizeFits e.bytes.length then none else some (toString e.bytes.length)) ∧
      recordValue? (recordsOf e) "mtime" =
        (if timeFits e.seconds then none else some (toString e.seconds)) := by
  unfold recordsOf recordValue?
  dsimp only
  cases nameFits (memberName e) <;> cases sizeFits e.bytes.length <;> cases timeFits e.seconds <;>
    simp

theorem length_toString_nat_le {n k : Nat} (hk : 0 < k) (h : n < 10 ^ k) : (toString n).length ≤ k :=
  (Nat.length_repr_le_iff hk).2 h

theorem length_toString_int_le {n : Int} {k : Nat} (hk : 0 < k) (h : n.natAbs < 10 ^ k) :
    (toString n).length ≤ k + 1 := by
  cases n with
  | ofNat m => exact Nat.le_succ_of_le (length_toString_nat_le hk h)
  | negSucc m =>
      have : (toString (m + 1)).length ≤ k := length_toString_nat_le hk h
      show ("-" ++ toString (m + 1)).length ≤ k + 1
      rw [String.length_append]
      show 1 + _ ≤ k + 1
      omega

/-- Names, sizes and times of the usual kinds can be told. -/
theorem packable_of {e : Entry} (hpath : e.path.Sound) (hname : (memberName e).length ≤ 1000000)
    (hsize : e.bytes.length < 10 ^ 20) (htime : e.modified.natAbs < 10 ^ 20) : Packable e := by
  refine ⟨hpath, ?_⟩
  have hpathRecord := length_recordBytes_le ("path", memberName e)
  have hsizeRecord := length_recordBytes_le ("size", toString e.bytes.length)
  have htimeRecord := length_recordBytes_le ("mtime", toString e.seconds)
  have hsizeText : (toString e.bytes.length).length ≤ 20 := length_toString_nat_le (by decide) hsize
  have htimeText : (toString e.seconds).length ≤ 21 := by
    refine length_toString_int_le (by decide) (Nat.lt_of_le_of_lt (natAbs_wholePart_toldTime _) ?_)
    omega
  have hlimit : numberLimit = 8589934592 := rfl
  have hkeywords : "path".length = 4 ∧ "size".length = 4 ∧ "mtime".length = 5 := by decide
  unfold recordsOf
  dsimp only
  rw [hlimit, List.flatMap_append, List.flatMap_append, List.length_append, List.length_append]
  -- each record is left out or has its length
  have hone : ∀ (b : Bool) (r : Record),
      ((if b = true then [] else [r]).flatMap recordBytes).length ≤ (recordBytes r).length := by
    intro b r
    cases b with
    | true => exact Nat.zero_le _
    | false => exact Nat.le_of_eq (by simp)
  have h₁ := hone (nameFits (memberName e)) ("path", memberName e)
  have h₂ := hone (sizeFits e.bytes.length) ("size", toString e.bytes.length)
  have h₃ := hone (timeFits e.seconds) ("mtime", toString e.seconds)
  dsimp only at hpathRecord hsizeRecord htimeRecord
  omega

theorem naturalOf?_toDigits (n : Nat) : naturalOf? (Nat.toDigits 10 n) = some n := by
  have hall : (Nat.toDigits 10 n).all (·.isDigit) = true :=
    List.all_eq_true.2 fun c hc => Nat.isDigit_of_mem_toDigits (by decide) (by decide) hc
  have hne : (Nat.toDigits 10 n).isEmpty = false := by simp
  rw [naturalOf?, hall, hne, Nat.ofDigitChars_ten_toDigits]
  rfl

/-- A whole number is read back from its text. -/
theorem integerOf?_toString (n : Int) : integerOf? (toString n) = some n := by
  cases n with
  | ofNat m =>
      have hlist : (toString (Int.ofNat m)).toList = Nat.toDigits 10 m := Nat.toList_repr
      unfold integerOf?
      split
      · rename_i digits hminus
        rw [hlist] at hminus
        have hmem : '-' ∈ Nat.toDigits 10 m := hminus ▸ List.mem_cons_self
        exact absurd (Nat.isDigit_of_mem_toDigits (by decide) (by decide) hmem) (by decide)
      · rw [hlist, naturalOf?_toDigits]
        rfl
  | negSucc m =>
      have hlist : (toString (Int.negSucc m)).toList = '-' :: Nat.toDigits 10 (m + 1) := by
        show ("-" ++ Nat.repr (m + 1)).toList = _
        rw [String.toList_append, Nat.toList_repr]
        rfl
      unfold integerOf?
      rw [hlist]
      show (naturalOf? (Nat.toDigits 10 (m + 1))).map _ = _
      rw [naturalOf?_toDigits]
      rfl

theorem contentSize_headerOf (e : Entry) : contentSize (recordsOf e) (headerOf e) = e.bytes.length := by
  rw [contentSize, recordNumber?, (recordValue?_recordsOf e).2.1, headerOf]
  dsimp only
  cases h : sizeFits e.bytes.length with
  | true => rfl
  | false =>
      have hread : integerOf? (toString e.bytes.length) = some (e.bytes.length : Int) :=
        integerOf?_toString (e.bytes.length : Int)
      show ((integerOf? (toString e.bytes.length)).map Int.toNat).getD _ = _
      rw [hread]
      rfl

theorem modified_headerOf (e : Entry) :
    (recordTime? (recordsOf e)).getD (headerOf e).modified = e.seconds := by
  rw [recordTime?, recordNumber?, (recordValue?_recordsOf e).2.2, headerOf]
  dsimp only
  cases h : timeFits e.seconds with
  | true =>
      rw [timeFits, Bool.and_eq_true, decide_eq_true_eq] at h
      exact Int.toNat_of_nonneg h.1
  | false =>
      show (integerOf? (toString e.seconds)).getD _ = _
      rw [integerOf?_toString]
      rfl

/-! ## Names -/

theorem zero_not_mem_asciiBytes {s : String} (h : '\x00' ∉ s.toList) : 0 ∉ asciiBytes s := by
  intro h0
  obtain ⟨c, hc, hb⟩ := List.mem_map.1 h0
  split at hb
  · rename_i hlt
    have hn : c.toNat = 0 := by
      have := congrArg UInt8.toNat hb
      rwa [Text.toNat_ofNat_of_lt (by omega)] at this
    have hzero : c = '\x00' := Char.toNat_inj.1 hn
    exact h (hzero ▸ hc)
  · exact absurd hb (by decide)

theorem zero_not_mem_memberName (hp : e.path.Sound) : '\x00' ∉ (memberName e).toList := by
  intro h
  rw [memberName, String.toList_append, List.mem_append] at h
  rcases h with h | h
  · exact hp.zero_not_mem h
  · split at h
    · exact absurd h (by decide)
    · exact absurd h (by decide)

/-- The name of a member is in its records or in its header. -/
theorem writtenName?_headerOf (e : Entry) :
    writtenName? (recordsOf e) (headerOf e).cut = some (memberName e) := by
  rw [writtenName?, (recordValue?_recordsOf e).1]
  cases h : nameFits (memberName e) with
  | false => rfl
  | true =>
      rw [nameFits, Bool.and_eq_true, List.all_eq_true, decide_eq_true_eq] at h
      have hlen : (asciiBytes (memberName e)).length ≤ nameWidth := by
        rw [asciiBytes, List.length_map]
        exact h.2
      show textOf? ((asciiBytes (memberName e)).take nameWidth) = _
      rw [List.take_of_length_le hlen, asciiBytes_eq fun c hc => of_decide_eq_true (h.1 c hc),
        textOf?_utf8OfString]

theorem withoutSlash_memberName (hp : e.path.Sound) : withoutSlash (memberName e) = e.path.text := by
  unfold withoutSlash memberName
  cases e.isDirectory with
  | true =>
      rw [if_pos rfl, String.toList_append, List.reverse_append]
      show String.ofList e.path.text.toList.reverse.reverse = _
      rw [List.reverse_reverse, String.ofList_toList]
  | false =>
      obtain ⟨c, hc, hne⟩ := hp.getLast?
      rw [if_neg (by decide), String.append_empty]
      split
      · rename_i rest hrev
        rw [← List.head?_reverse, hrev] at hc
        exact absurd (Option.some.inj hc).symm hne
      · rfl

/-! ## Members -/

theorem legible_headerOf (hp : e.path.Sound) : (headerOf e).Legible where
  name := zero_not_mem_asciiBytes (zero_not_mem_memberName hp)
  mode := by
    show (if e.isDirectory = true then directoryMode else fileMode) < _
    split <;> decide
  owner := by
    show 0 < _
    decide
  group := by
    show 0 < _
    decide
  size := by
    show (if sizeFits e.bytes.length = true then e.bytes.length else 0) < numberLimit
    split
    · rename_i h
      exact of_decide_eq_true h
    · decide
  modified := by
    show (if timeFits e.seconds = true then e.seconds.toNat else 0) < numberLimit
    split
    · rename_i h
      rw [timeFits, Bool.and_eq_true, decide_eq_true_eq, decide_eq_true_eq] at h
      omega
    · decide
  ownerName := List.not_mem_nil
  groupName := List.not_mem_nil

theorem kind_headerOf (e : Entry) : (headerOf e).kind ≠ .records := by
  show (if e.isDirectory = true then Kind.directory else .file) ≠ .records
  split <;> decide

theorem of?_headerOf (hp : e.path.Sound) (offset : Nat) :
    Member.of? offset (offset + (recordsMember (recordsOf e)).length + blockSize) (recordsOf e)
      (headerOf e).cut e.bytes = some (memberOf offset e) := by
  rw [Member.of?, writtenName?_headerOf, Option.map_some, withoutSlash_memberName hp, memberOf,
    ← modified_headerOf e]
  rfl

/-! ## Turns of the reader -/

theorem take_block_append (h : Header) (rest : List UInt8) :
    (h.block ++ rest).take blockSize = h.block := by rw [← length_block h, List.take_left]

/-- A block with a header is not the end of an archive. -/
theorem block_not_end (h : Header) (rest : List UInt8) :
    ¬ (((h.block ++ rest).take blockSize).length < blockSize ∨
      ((h.block ++ rest).take blockSize).all (· = 0) = true) := by
  -- the kind of the member is a byte that is not zero
  rw [take_block_append, not_or]
  refine ⟨by rw [length_block]; exact Nat.lt_irrefl _, fun hall => ?_⟩
  have hmem : h.kind.byte ∈ h.block := by
    refine List.mem_append_right _ ?_
    simp [Header.fieldsAfterSum]
  have := of_decide_eq_true (List.all_eq_true.1 hall _ hmem)
  cases hk : h.kind <;> rw [hk] at this <;> exact absurd this (by decide)

/-- Content is found behind its header, and what follows it behind its padding. -/
theorem content_parts (h : Header) (content rest : List UInt8) :
    ((h.block ++ (padded content ++ rest)).drop blockSize).take content.length = content ∧
      (h.block ++ (padded content ++ rest)).drop (blockSize + (padded content).length) = rest := by
  constructor
  · rw [← length_block h, List.drop_left, padded, List.append_assoc, List.take_left]
  · rw [← length_block h, ← List.length_append, ← List.append_assoc, List.drop_left]

theorem readMembers?_member {start offset : Nat} {records : List Record} {h : Header}
    {content : List UInt8} {m : Member} (fuel : Nat) (rest : List UInt8) (hl : h.Legible)
    (hk : h.kind ≠ .records)
    (hs : contentSize records h.cut = content.length)
    (hm : Member.of? start (offset + blockSize) records h.cut content = some m) :
    readMembers? (fuel + 1) start offset records (h.block ++ (padded content ++ rest)) =
      (readMembers? fuel (offset + (blockSize + (padded content).length))
        (offset + (blockSize + (padded content).length)) [] rest).map (m :: ·) := by
  obtain ⟨hcontent, hrest⟩ := content_parts h content rest
  have hsize : (if h.cut.kind = .records then h.cut.size else contentSize records h.cut) =
      content.length := by rw [if_neg (show h.cut.kind ≠ .records from hk), hs]
  rw [readMembers?, if_neg (block_not_end h _), take_block_append, Header.ofBlock?_block hl]
  dsimp only [Option.bind_eq_bind, Option.bind_some]
  rw [hsize, hcontent, hrest]
  cases hkind : h.cut.kind with
  | records => exact absurd hkind hk
  | _ =>
      dsimp only
      rw [hm]
      dsimp only [Option.bind_some]
      cases readMembers? fuel _ _ [] rest <;> rfl

/-- The header of a member that holds records. -/
def recordsHeader (records : List Record) : Header :=
  ⟨recordsName, 0, 0, 0, (records.flatMap recordBytes).length, 0, .records, [], []⟩

theorem recordsMember_eq {records : List Record} (h : records ≠ []) :
    recordsMember records =
      (recordsHeader records).block ++ padded (records.flatMap recordBytes) := by
  rw [recordsMember, if_neg (by simpa using h)]
  rfl

theorem legible_recordsHeader {records : List Record}
    (h : (records.flatMap recordBytes).length < numberLimit) : (recordsHeader records).Legible where
  name := by
    show 0 ∉ recordsName
    decide
  mode := by
    show 0 < _
    decide
  owner := by
    show 0 < _
    decide
  group := by
    show 0 < _
    decide
  size := h
  modified := by
    show 0 < _
    decide
  ownerName := List.not_mem_nil
  groupName := List.not_mem_nil

/-- Records take a turn of the reader of their own. -/
theorem readMembers?_records {fuel start : Nat} {records : List Record} {rest : List UInt8}
    (hne : records ≠ []) (hlen : (records.flatMap recordBytes).length < numberLimit)
    (hread : readRecords? (records.flatMap recordBytes).length (records.flatMap recordBytes) =
      some records) :
    readMembers? (fuel + 1) start start [] (recordsMember records ++ rest) =
      readMembers? fuel start (start + (recordsMember records).length) records rest := by
  have hl := legible_recordsHeader hlen
  obtain ⟨hcontent, hrest⟩ := content_parts (recordsHeader records) (records.flatMap recordBytes) rest
  have hlength : (recordsMember records).length =
      blockSize + (padded (records.flatMap recordBytes)).length := by
    rw [recordsMember_eq hne, List.length_append, length_block]
  rw [recordsMember_eq hne, List.append_assoc, readMembers?, if_neg (block_not_end _ _),
    take_block_append, Header.ofBlock?_block hl]
  dsimp only [Option.bind_eq_bind, Option.bind_some]
  have hsize : (if (recordsHeader records).cut.kind = .records then (recordsHeader records).cut.size
      else contentSize [] (recordsHeader records).cut) = (records.flatMap recordBytes).length :=
    if_pos rfl
  rw [hsize, hcontent, hrest]
  show (readRecords? _ _).bind _ = _
  rw [hread, ← recordsMember_eq hne, hlength]
  rfl

/-- How many turns of the reader a member takes. -/
def turns (e : Entry) : Nat := if (recordsOf e).isEmpty then 1 else 2

theorem length_member (e : Entry) :
    (member e).length =
      (recordsMember (recordsOf e)).length + (blockSize + (padded e.bytes).length) := by
  rw [member, List.append_assoc, List.length_append, List.length_append, length_block]

/-- **An entry is read back from its member.** -/
theorem readMembers?_entry (hp : Packable e) (fuel start : Nat) (rest : List UInt8) :
    readMembers? (fuel + turns e) start start [] (member e ++ rest) =
      (readMembers? fuel (start + (member e).length) (start + (member e).length) [] rest).map
        (memberOf start e :: ·) := by
  have hmember : member e ++ rest =
      recordsMember (recordsOf e) ++ ((headerOf e).block ++ (padded e.bytes ++ rest)) := by
    rw [member, List.append_assoc, List.append_assoc]
  have hblock := readMembers?_member fuel rest (legible_headerOf hp.path) (kind_headerOf e)
    (contentSize_headerOf e) (of?_headerOf hp.path start)
  rw [hmember, length_member, ← Nat.add_assoc start]
  -- without records a member is one turn; with records these are read in a turn before
  by_cases hr : recordsOf e = []
  · have hnone : recordsMember (recordsOf e) = [] := by rw [hr]; rfl
    rw [hnone, hr, List.length_nil, Nat.add_zero] at hblock
    rw [turns, if_pos (by simpa using hr), hnone, List.nil_append, List.length_nil, Nat.add_zero]
    exact hblock
  · have hread := readRecords?_recordsOf e (length_le_flatMap_recordBytes _)
    rw [turns, if_neg (by simpa using hr), readMembers?_records hr hp.records hread]
    exact hblock

/-- Each turn of the reader takes a block at least. -/
theorem turns_le (e : Entry) : blockSize * turns e ≤ (member e).length := by
  by_cases hr : recordsOf e = []
  · rw [length_member, turns, if_pos (by simpa using hr)]
    omega
  · rw [length_member, turns, if_neg (by simpa using hr), recordsMember_eq hr, List.length_append,
      length_block]
    omega

theorem readMembers?_trailer (fuel start length : Nat) :
    readMembers? (fuel + 1) start start [] (trailer length) = some [] := by
  rw [readMembers?]
  refine if_pos (.inr (List.all_eq_true.2 fun b hb => ?_))
  rw [List.eq_of_mem_replicate (List.mem_of_mem_take hb)]
  rfl

/-- **The members of an archive are its entries, one by one.** -/
theorem readMembers?_entries {es : List Entry} (hp : ∀ e ∈ es, Packable e) (length : Nat)
    {fuel start : Nat} (hf : (es.flatMap member).length < blockSize * fuel) :
    readMembers? fuel start start [] (es.flatMap member ++ trailer length) =
      some (membersOf start es) := by
  induction es generalizing fuel start with
  | nil =>
      cases fuel with
      | zero => exact absurd hf (Nat.not_lt_zero _)
      | succ fuel =>
          rw [List.flatMap_nil, List.nil_append]
          exact readMembers?_trailer fuel start length
  | cons e es ih =>
      -- the bytes of the first member pay for its turns, and the rest of the fuel is for the others
      have hturns := turns_le e
      rw [List.flatMap_cons, List.length_append] at hf
      obtain ⟨rest, rfl⟩ : ∃ rest, fuel = rest + turns e := by
        refine ⟨fuel - turns e, (Nat.sub_add_cancel ?_).symm⟩
        exact Nat.le_of_mul_le_mul_left (Nat.le_of_lt (by omega)) (by decide : 0 < blockSize)
      rw [Nat.mul_add] at hf
      rw [List.flatMap_cons, List.append_assoc,
        readMembers?_entry (hp e List.mem_cons_self),
        ih (fun f hf => hp f (List.mem_cons_of_mem _ hf)) (by omega)]
      rfl

/-- **The archive of a tree is read back**: one member for each entry, in the order of the paths. -/
theorem read?_archive {t : Tree} (hp : ∀ e ∈ t.entries, Packable e) :
    read? (archive t) = some (membersOf 0 t.sorted) := by
  rw [read?, archive]
  refine readMembers?_entries (fun e he => hp e (t.sorted_perm.mem_iff.1 he)) _ ?_
  rw [List.length_append]
  have hsize : blockSize = 512 := rfl
  rw [hsize]
  omega

/-! ## What an archive holds -/

/-- What an archive is read for: the kind, the name and the content of a member. -/
abbrev Item := Kind × String × List UInt8

def Member.item (m : Member) : Item := (m.kind, m.name, m.content)

/-- The item of an entry. -/
def itemOf (e : Entry) : Item := ((headerOf e).kind, e.path.text, e.bytes)

theorem map_membersOf (start : Nat) (es : List Entry) :
    (membersOf start es).map Member.item = es.map itemOf := by
  induction es generalizing start with
  | nil => rfl
  | cons e es ih =>
      rw [membersOf, List.map_cons, List.map_cons, ih]
      rfl

theorem names_membersOf (start : Nat) (es : List Entry) :
    (membersOf start es).map (·.name) = es.map (·.path.text) := by
  have h := congrArg (List.map fun item : Item => item.2.1) (map_membersOf start es)
  rw [List.map_map, List.map_map] at h
  exact h

/-- Entries with different paths have different names. -/
theorem nodup_texts {es : List Entry} (hsound : ∀ e ∈ es, e.path.Sound)
    (h : (es.map (·.path)).Nodup) : (es.map (·.path.text)).Nodup := by
  rw [List.Nodup, List.pairwise_map] at h ⊢
  exact h.imp_of_mem fun he he' hne htext => hne (Path.text_inj (hsound _ he) (hsound _ he') htext)

/-- **An archive holds what the tree holds**, and names it with different names. -/
theorem read?_items {t : Tree} (hp : ∀ e ∈ t.entries, Packable e)
    (hpaths : (t.entries.map (·.path)).Nodup) :
    ∃ members, read? (archive t) = some members ∧ (members.map (·.name)).Nodup ∧
      (members.map Member.item).Perm (t.entries.map itemOf) := by
  refine ⟨membersOf 0 t.sorted, read?_archive hp, ?_, ?_⟩
  · rw [names_membersOf]
    exact nodup_texts (fun e he => (hp e (t.sorted_perm.mem_iff.1 he)).path)
      ((t.sorted_perm.map _).nodup_iff.2 hpaths)
  · rw [map_membersOf]
    exact t.sorted_perm.map _

end ImageTransfer.Archive.Tar
