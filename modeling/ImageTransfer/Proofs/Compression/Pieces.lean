import ImageTransfer.Proofs.Compression.Stream

/-!
# Streams that come in pieces

However a stream is cut, its reader ends where it would have ended if all bytes had come at once, and
has decoded the same (`feedAll_flatten`). So it is enough to say what becomes of a whole stream, and
`Verdict` says it without a reader: the stream holds something, or it ends inside a member, or no
member goes on as it does. One of the three is the case, and it is what the reader finds
(`decode_verdict`).
-/

namespace ImageTransfer.Compression

/-- A decoder goes through these bytes, none of which ends the member, and gives this output. -/
inductive Begins (d : MemberDecoder) : d.State → List UInt8 → d.State → List UInt8 → Prop
  | nil {s : d.State} : Begins d s [] s []
  | more {s t u : d.State} {b : UInt8} {output rest output' : List UInt8} :
      d.push s b = .more t output → Begins d t rest u output' →
        Begins d s (b :: rest) u (output ++ output')

/-- What a whole stream comes to. A compressed stream is taken apart into members as far as that
goes, and what then is left over decides. -/
inductive Verdict (decoders : Decoders) (bytes : List UInt8) :
    Except StreamError (List UInt8) → Prop
  | holds {content : List UInt8} : Decompressed decoders bytes content →
      Verdict decoders bytes (.ok content)
  /-- What is left over is the beginning of a member. -/
  | truncated {c : Compression} {members part content output : List UInt8} {s : (decoders c).State} :
      detect (bytes.take magicLength) = c → c ≠ .identity → bytes = members ++ part → part ≠ [] →
        Members (decoders c) members content → Begins (decoders c) (decoders c).start part s output →
          Verdict decoders bytes (.error (.truncated c))
  /-- What is left over begins as a member does, but has a byte with which no member goes on. -/
  | corrupt {c : Compression} {members part rest content output : List UInt8} {b : UInt8}
      {s : (decoders c).State} :
      detect (bytes.take magicLength) = c → c ≠ .identity → bytes = members ++ (part ++ b :: rest) →
        Members (decoders c) members content → Begins (decoders c) (decoders c).start part s output →
          (decoders c).push s b = .corrupt → Verdict decoders bytes (.error (.corrupt c))

/-! ## Every stream has a verdict -/

section

variable {d : MemberDecoder}

/-- Bytes hold a whole member, or are the beginning of one, or spoil it. -/
theorem member_cases (d : MemberDecoder) (s : d.State) (bytes : List UInt8) :
    (∃ member rest content, bytes = member ++ rest ∧ Finishes d s member content) ∨
      (∃ t output, Begins d s bytes t output) ∨
        ∃ part b rest t output, bytes = part ++ b :: rest ∧ Begins d s part t output ∧
          d.push t b = .corrupt := by
  induction bytes generalizing s with
  | nil => exact .inr (.inl ⟨s, [], .nil⟩)
  | cons b bytes ih =>
      cases hp : d.push s b with
      | complete output => exact .inl ⟨[b], bytes, output, rfl, .last hp⟩
      | corrupt => exact .inr (.inr ⟨[], b, bytes, s, [], rfl, .nil, hp⟩)
      | more t output =>
          rcases ih t with ⟨member, rest, content, rfl, hm⟩ | ⟨u, output', hb⟩ |
            ⟨part, x, rest, u, output', rfl, hb, hx⟩
          · exact .inl ⟨b :: member, rest, output ++ content, rfl, .more hp hm⟩
          · exact .inr (.inl ⟨u, output ++ output', .more hp hb⟩)
          · exact .inr (.inr ⟨b :: part, x, rest, u, output ++ output', rfl, .more hp hb, hx⟩)

/-- Bytes are members, or members and what is left over. -/
theorem members_cases (d : MemberDecoder) (bytes : List UInt8) :
    (∃ content, Members d bytes content) ∨
      ∃ members left content, bytes = members ++ left ∧ left ≠ [] ∧ Members d members content ∧
        ((∃ t output, Begins d d.start left t output) ∨
          ∃ part b rest t output, left = part ++ b :: rest ∧ Begins d d.start part t output ∧
            d.push t b = .corrupt) := by
  by_cases hnil : bytes = []
  · rw [hnil]
    exact .inl ⟨[], .nil⟩
  rcases member_cases d d.start bytes with ⟨member, rest, content, hb, hm⟩ | hleft
  · have hlen : rest.length < bytes.length := by
      have := List.length_pos_iff.2 hm.ne_nil
      rw [hb, List.length_append]
      omega
    -- after one member the rest is taken apart in the same way
    rcases members_cases d rest with ⟨content', hms⟩ |
      ⟨members, left, content', rfl, hne, hms, hleft⟩
    · exact .inl ⟨content ++ content', hb ▸ .cons hm hms⟩
    · exact .inr ⟨member ++ members, left, content ++ content',
        by rw [hb, List.append_assoc], hne, .cons hm hms, hleft⟩
  · exact .inr ⟨[], bytes, [], rfl, hnil, .nil, hleft⟩
termination_by bytes.length

end

/-- A compressed stream holds what the members of its format hold. -/
theorem decompressed_iff {decoders : Decoders} {bytes content : List UInt8}
    (hc : detect (bytes.take magicLength) ≠ .identity) :
    Decompressed decoders bytes content ↔
      Members (decoders (detect (bytes.take magicLength))) bytes content := by
  unfold Decompressed
  cases hd : detect (bytes.take magicLength) with
  | identity => exact absurd hd hc
  | _ => exact Iff.rfl

/-- **Every stream has a verdict.** -/
theorem exists_verdict (decoders : Decoders) (bytes : List UInt8) :
    ∃ r, Verdict decoders bytes r := by
  by_cases hc : detect (bytes.take magicLength) = .identity
  · refine ⟨.ok bytes, .holds ?_⟩
    rw [Decompressed, hc]
  rcases members_cases (decoders (detect (bytes.take magicLength))) bytes with ⟨content, hms⟩ |
    ⟨members, left, content, hb, hne, hms, hleft⟩
  · refine ⟨.ok content, .holds ?_⟩
    rw [decompressed_iff hc]
    exact hms
  · rcases hleft with ⟨t, output, hbegins⟩ | ⟨part, b, rest, t, output, rfl, hbegins, hbad⟩
    · exact ⟨_, .truncated rfl hc hb hne hms hbegins⟩
    · exact ⟨_, .corrupt rfl hc hb hms hbegins hbad⟩

namespace Stream

variable {decoders : Decoders} {c : Compression}

/-! ## One pass -/

theorem appendList_appendList (done : Array UInt8) (xs ys : List UInt8) :
    (done.appendList xs).appendList ys = done.appendList (xs ++ ys) := by
  apply Array.toList_inj.1
  simp

/-- One pass over a beginning of a member stays inside it. -/
theorem feedKnown_begins {s t : (decoders c).State} {part output : List UInt8}
    (h : Begins (decoders c) s part t output) (done : Array UInt8) (rest : List UInt8) :
    feedKnown (.inside c s : Stream decoders) done (part ++ rest) =
      feedKnown (.inside c t) (done.appendList output) rest := by
  induction h generalizing done with
  | nil => rfl
  | more hp _ ih =>
      rw [List.cons_append, feedKnown, pushKnown, pushInside, hp]
      dsimp only
      rw [ih, appendList_appendList]

/-- One pass over the rest of a member stands behind it. -/
theorem feedKnown_finishes {s : (decoders c).State} {member content : List UInt8}
    (h : Finishes (decoders c) s member content) (done : Array UInt8) (rest : List UInt8) :
    feedKnown (.inside c s : Stream decoders) done (member ++ rest) =
      feedKnown (.between c) (done.appendList content) rest := by
  induction h generalizing done with
  | last hp =>
      rw [List.singleton_append, feedKnown, pushKnown, pushInside, hp]
  | more hp _ ih =>
      rw [List.cons_append, feedKnown, pushKnown, pushInside, hp]
      dsimp only
      rw [ih, appendList_appendList]

/-- The first byte after a member begins a new one. -/
theorem feedKnown_between {bytes : List UInt8} (hb : bytes ≠ []) (done : Array UInt8) :
    feedKnown (.between c : Stream decoders) done bytes =
      feedKnown (.inside c (decoders c).start) done bytes := by
  obtain ⟨b, bytes, rfl⟩ := List.exists_cons_of_ne_nil hb
  rfl

/-- One pass over members stands behind the last of them. -/
theorem feedKnown_members {members content : List UInt8} (h : Members (decoders c) members content)
    (done : Array UInt8) (rest : List UInt8) :
    feedKnown (.between c : Stream decoders) done (members ++ rest) =
      feedKnown (.between c) (done.appendList content) rest := by
  induction h generalizing done with
  | nil => rfl
  | cons hm _ ih =>
      rw [List.append_assoc, feedKnown_between (List.append_ne_nil_of_left_ne_nil hm.ne_nil _),
        feedKnown_finishes hm, ih, appendList_appendList]

theorem feedKnown_plain (done : Array UInt8) (bytes : List UInt8) :
    feedKnown (.plain : Stream decoders) done bytes = .ok (.plain, done.appendList bytes) := by
  induction bytes generalizing done with
  | nil => rfl
  | cons b bytes ih =>
      rw [feedKnown, pushKnown]
      dsimp only
      rw [ih, appendList_appendList, List.singleton_append]

/-- One pass over a stream whose format is told by its header stands behind its whole members. -/
theorem feedKnown_sniff {header members left content : List UInt8} (hc : detect header = c)
    (hne : c ≠ .identity) (hb : members ++ left ≠ []) (h : Members (decoders c) members content) :
    feedKnown (sniff header : Stream decoders) #[] (members ++ left) =
      feedKnown (.between c) content.toArray left := by
  have hsniff : (sniff header : Stream decoders) = .inside c (decoders c).start := by
    subst hc
    unfold sniff
    cases hd : detect header with
    | identity => exact absurd hd hne
    | _ => rfl
  rw [hsniff, ← feedKnown_between hb, feedKnown_members h]
  congr 1
  apply Array.toList_inj.1
  simp

/-- One pass over a whole stream, which must not end inside a member. -/
def decodeWhole (decoders : Decoders) (bytes : List UInt8) :
    Except StreamError (Option Compression × List UInt8) := do
  let (s, output) ← feedKnown (sniff (bytes.take magicLength) : Stream decoders) #[] bytes
  match s.unfinished? with
  | some c => throw (.truncated c)
  | none => return (s.format?, output.toList)

/-- **One pass finds the verdict.** -/
theorem decodeWhole_of_verdict {bytes : List UInt8} {r : Except StreamError (List UInt8)}
    (h : Verdict decoders bytes r) :
    decodeWhole decoders bytes =
      r.map fun content => (some (detect (bytes.take magicLength)), content) := by
  unfold decodeWhole
  cases h with
  | @holds content h =>
      by_cases hc : detect (bytes.take magicLength) = .identity
      · have hsniff : (sniff (bytes.take magicLength) : Stream decoders) = .plain := by
          rw [sniff, hc]
        rw [Decompressed, hc] at h
        rw [hsniff, feedKnown_plain, hc, h]
        show Except.ok (some Compression.identity, (#[].appendList bytes).toList) = _
        simp [Except.map]
      · rw [decompressed_iff hc] at h
        have hb : bytes ++ [] ≠ [] := by
          intro hnil
          rw [List.append_nil] at hnil
          rw [hnil] at hc
          exact hc rfl
        have hpass := feedKnown_sniff rfl hc hb h
        rw [List.append_nil] at hpass
        rw [hpass]
        rfl
  | @truncated c members part content output s hc hne hb hpart hms hbegins =>
      have hpass := feedKnown_sniff hc hne (List.append_ne_nil_of_right_ne_nil _ hpart) hms
      -- the pass goes on into the part that is left over, and stays there
      have hinside := @feedKnown_begins decoders _ _ _ _ _ hbegins content.toArray []
      rw [List.append_nil] at hinside
      rw [← hb, feedKnown_between hpart, hinside] at hpass
      rw [hpass]
      rfl
  | @corrupt c members part rest content output b s hc hne hb hms hbegins hbad =>
      have hleft : part ++ b :: rest ≠ [] :=
        List.append_ne_nil_of_right_ne_nil _ (List.cons_ne_nil _ _)
      have hpass := feedKnown_sniff hc hne (List.append_ne_nil_of_right_ne_nil _ hleft) hms
      rw [← hb, feedKnown_between hleft, feedKnown_begins hbegins, feedKnown, pushKnown, pushInside,
        hbad] at hpass
      rw [hpass]
      rfl

/-! ## Pieces -/

/-- All pieces of a stream one after the other: where its reader stands then, and what was decoded. -/
def feedAll (s : Stream decoders) :
    List (List UInt8) → Except StreamError (Stream decoders × Array UInt8)
  | [] => .ok (s, #[])
  | piece :: pieces => do
    let (t, output) ← s.feed piece
    let (u, output') ← t.feedAll pieces
    return (u, output ++ output')

theorem feed_of_isKnown {s : Stream decoders} (hs : s.IsKnown) (piece : List UInt8) :
    s.feed piece = feedKnown s #[] piece := by
  cases s with
  | unknown header => exact absurd rfl (hs header)
  | _ => rfl

theorem eq_unknown_of_not_isKnown {s : Stream decoders} (hs : ¬ s.IsKnown) :
    ∃ header, s = .unknown header := by simpa [IsKnown] using hs

/-- A pass may stop anywhere and go on with the next piece. -/
theorem feedKnown_append_feed {s : Stream decoders} (hs : s.IsKnown) (xs ys : List UInt8) :
    feedKnown s #[] (xs ++ ys) = (do
      let (t, output) ← feedKnown s #[] xs
      let (u, output') ← t.feed ys
      return (u, output ++ output')) := by
  rw [feedKnown_append]
  cases h : feedKnown s #[] xs with
  | error e => rfl
  | ok r =>
      obtain ⟨t, output⟩ := r
      show feedKnown t output ys = (t.feed ys >>= fun r => pure (r.1, output ++ r.2))
      rw [feedKnown_done, feed_of_isKnown (isKnown_feedKnown hs h)]
      rfl

/-- **Two pieces are decoded as one.** -/
theorem feed_append (s : Stream decoders) (xs ys : List UInt8) :
    s.feed (xs ++ ys) = (do
      let (t, output) ← s.feed xs
      let (u, output') ← t.feed ys
      return (u, output ++ output')) := by
  by_cases hs : s.IsKnown
  · rw [feed_of_isKnown hs, feed_of_isKnown hs, feedKnown_append_feed hs]
  obtain ⟨header, rfl⟩ := eq_unknown_of_not_isKnown hs
  by_cases hshort : (header ++ xs).length < magicLength
  · -- the first piece is kept until there is more
    have hkept : (Stream.unknown header : Stream decoders).feed xs =
        .ok (.unknown (header ++ xs), #[]) := if_pos hshort
    rw [hkept]
    show _ = ((Stream.unknown (header ++ xs) : Stream decoders).feed ys >>=
      fun r => pure (r.1, #[] ++ r.2))
    simp [feed, List.append_assoc]
  · have htold : ∀ more : List UInt8, (Stream.unknown header : Stream decoders).feed (xs ++ more) =
        feedKnown (sniff ((header ++ xs).take magicLength)) #[] (header ++ xs ++ more) := by
      intro more
      have hlong : ¬ (header ++ (xs ++ more)).length < magicLength := by
        simp only [List.length_append] at hshort ⊢
        omega
      rw [← List.append_assoc] at hlong
      rw [feed, ← List.append_assoc, if_neg hlong, List.take_append_of_le_length (by omega)]
    have hfirst := htold []
    rw [List.append_nil, List.append_nil] at hfirst
    rw [htold, hfirst, feedKnown_append_feed (isKnown_sniff _)]

/-- A reader that is fed nothing stays where it is, if it is not to look at its header yet. -/
def Settled (s : Stream decoders) : Prop := s.feed [] = .ok (s, #[])

theorem settled_start : Settled (start decoders) := rfl

theorem settled_of_isKnown {s : Stream decoders} (hs : s.IsKnown) : s.Settled := feed_of_isKnown hs []

/-- After a piece, all that was seen has been looked at. -/
theorem settled_of_feed {s t : Stream decoders} {piece : List UInt8} {output : Array UInt8}
    (h : s.feed piece = .ok (t, output)) : t.Settled := by
  by_cases hs : s.IsKnown
  · rw [feed_of_isKnown hs] at h
    exact settled_of_isKnown (isKnown_feedKnown hs h)
  obtain ⟨header, rfl⟩ := eq_unknown_of_not_isKnown hs
  unfold feed at h
  dsimp only at h
  split at h
  · rename_i hshort
    cases h
    rw [← List.append_nil (header ++ piece)] at hshort
    rw [Settled, feed, if_pos hshort, List.append_nil]
  · exact settled_of_isKnown (isKnown_feedKnown (isKnown_sniff _) h)

/-- **However a stream is cut, it is decoded as if all bytes had come at once.** -/
theorem feedAll_flatten {s : Stream decoders} (hs : s.Settled) (pieces : List (List UInt8)) :
    s.feedAll pieces = s.feed pieces.flatten := by
  induction pieces generalizing s with
  | nil => exact hs.symm
  | cons piece pieces ih =>
      rw [feedAll, List.flatten_cons, feed_append]
      cases h : s.feed piece with
      | error e => rfl
      | ok r =>
          show (r.1.feedAll pieces >>= fun x => pure (x.1, r.2 ++ x.2)) = _
          rw [ih (settled_of_feed h)]
          rfl

/-! ## The whole stream -/

/-- The pieces of a stream from its start to its end: how it is compressed, and what was decoded. -/
def decode (decoders : Decoders) (pieces : List (List UInt8)) :
    Except StreamError (Option Compression × List UInt8) := do
  let (s, output) ← (start decoders).feedAll pieces
  let (t, last) ← s.close
  return (t.format?, (output ++ last).toList)

/-- A stream whose format is known adds nothing in the end. -/
theorem close_of_isKnown {s : Stream decoders} (hs : s.IsKnown) :
    s.close = match s.unfinished? with
      | some c => .error (.truncated c)
      | none => .ok (s, #[]) := by
  cases s with
  | unknown header => exact absurd rfl (hs header)
  | _ => rfl

/-- **Pieces are decoded as in one pass.** -/
theorem decode_eq_decodeWhole (pieces : List (List UInt8)) :
    decode decoders pieces = decodeWhole decoders pieces.flatten := by
  rw [decode, feedAll_flatten settled_start, decodeWhole]
  by_cases hshort : pieces.flatten.length < magicLength
  · -- what was kept to the end is decoded then
    have hkept : (start decoders).feed pieces.flatten = .ok (.unknown pieces.flatten, #[]) :=
      if_pos hshort
    rw [hkept, List.take_of_length_le (Nat.le_of_lt hshort)]
    show ((Stream.unknown pieces.flatten : Stream decoders).close >>=
      fun r => pure (r.1.format?, (#[] ++ r.2).toList)) = _
    rw [close, finish]
    cases feedKnown (sniff pieces.flatten : Stream decoders) #[] pieces.flatten with
    | error e => rfl
    | ok r =>
        obtain ⟨t, output⟩ := r
        dsimp only [bind, Except.bind]
        cases t.unfinished? with
        | some c => rfl
        | none => simp [pure, Except.pure]
  · have htold : (start decoders).feed pieces.flatten =
        feedKnown (sniff (pieces.flatten.take magicLength)) #[] pieces.flatten := if_neg hshort
    rw [htold]
    cases hpass : feedKnown (sniff (pieces.flatten.take magicLength) : Stream decoders) #[]
        pieces.flatten with
    | error e => rfl
    | ok r =>
        obtain ⟨t, output⟩ := r
        dsimp only [bind, Except.bind]
        rw [close_of_isKnown (isKnown_feedKnown (isKnown_sniff _) hpass)]
        cases t.unfinished? with
        | some c => rfl
        | none => simp [pure, Except.pure]

/-- What can be decoded is decoded by one feed and the end. -/
theorem feed_of_decompressed {bytes content : List UInt8}
    (h : Decompressed decoders bytes content) :
    ∃ s output, (start decoders).feed bytes = .ok (s, output) ∧ ∃ t last, s.close = .ok (t, last) := by
  have hdecode := @decode_eq_decodeWhole decoders [bytes]
  rw [List.flatten_singleton, decodeWhole_of_verdict (.holds h), decode,
    feedAll_flatten settled_start, List.flatten_singleton] at hdecode
  cases hfeed : (start decoders).feed bytes with
  | error e =>
      rw [hfeed] at hdecode
      exact absurd hdecode nofun
  | ok v =>
      cases hclose : v.1.close with
      | error e =>
          rw [hfeed] at hdecode
          dsimp only [bind, Except.bind] at hdecode
          rw [hclose] at hdecode
          exact absurd hdecode nofun
      | ok last => exact ⟨v.1, v.2, rfl, last.1, last.2, hclose⟩

/-- **What becomes of a stream is told by its bytes, however they are cut.** Its reader stands where
it would stand and has decoded what it would have decoded if all bytes had come at once. In the end
it gives the format that the first bytes tell, and the one verdict there is on the whole. -/
theorem decode_verdict (decoders : Decoders) (pieces : List (List UInt8)) :
    (start decoders).feedAll pieces = (start decoders).feed pieces.flatten ∧
      ∃ r, (∀ r', Verdict decoders pieces.flatten r' ↔ r' = r) ∧
        decode decoders pieces =
          r.map fun content => (some (detect (pieces.flatten.take magicLength)), content) := by
  obtain ⟨r, hr⟩ := exists_verdict decoders pieces.flatten
  have hdecode := decodeWhole_of_verdict hr
  refine ⟨feedAll_flatten settled_start pieces, r, fun r' => ⟨fun hr' => ?_, fun h => h ▸ hr⟩, ?_⟩
  · -- two verdicts are both what the pass finds
    have hsame := (decodeWhole_of_verdict hr').symm.trans hdecode
    cases r' <;> cases r <;> simp_all [Except.map]
  · rw [decode_eq_decodeWhole, hdecode]

end Stream

end ImageTransfer.Compression
