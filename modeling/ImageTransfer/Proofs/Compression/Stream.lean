import ImageTransfer.Compression.Stream

/-!
# What a stream holds

A stream that is not compressed holds its own bytes. A compressed one is members of its format, back
to back, and holds what they hold one after the other (`Decompressed`). That says nothing of pieces.

A reader gets the stream in pieces. However they are cut, what it has decoded so far is what one pass
over the bytes seen so far decodes (`Fed`), and if the stream may end there, that is all that the
stream holds (`Fed.decompressed`).
-/

namespace ImageTransfer.Compression

/-- A decoder goes through these bytes, of which the last ends the member, and gives this output. -/
inductive Finishes (d : MemberDecoder) : d.State → List UInt8 → List UInt8 → Prop
  | last {s : d.State} {b : UInt8} {output : List UInt8} : d.push s b = .complete output →
      Finishes d s [b] output
  | more {s t : d.State} {b : UInt8} {output rest output' : List UInt8} :
      d.push s b = .more t output → Finishes d t rest output' →
        Finishes d s (b :: rest) (output ++ output')

/-- Bytes are members, back to back, and this is what they hold. -/
inductive Members (d : MemberDecoder) : List UInt8 → List UInt8 → Prop
  | nil : Members d [] []
  | cons {member rest content content' : List UInt8} : Finishes d d.start member content →
      Members d rest content' → Members d (member ++ rest) (content ++ content')

/-- What a whole stream holds: its bytes as they are, or what the members of its format hold. -/
def Decompressed (decoders : Decoders) (bytes content : List UInt8) : Prop :=
  match detect (bytes.take magicLength) with
  | .identity => content = bytes
  | c => Members (decoders c) bytes content

/-! ## Streams hold one content -/

section

variable {d : MemberDecoder}

theorem Finishes.ne_nil {s : d.State} {member content : List UInt8}
    (h : Finishes d s member content) : member ≠ [] := by
  cases h <;> exact List.cons_ne_nil _ _

/-- Where a member ends and what it holds does not depend on what comes after it. -/
theorem Finishes.unique {s : d.State} {member content member' content' rest rest' : List UInt8}
    (h : Finishes d s member content) (h' : Finishes d s member' content')
    (hb : member ++ rest = member' ++ rest') :
    content = content' ∧ rest = rest' := by
  induction h generalizing member' content' with
  | last hp =>
      cases h' with
      | last hp' =>
          cases hb
          cases hp.symm.trans hp'
          exact ⟨rfl, rfl⟩
      | more hp' _ =>
          cases (List.cons.inj hb).1
          exact absurd (hp.symm.trans hp') nofun
  | more hp _ ih =>
      cases h' with
      | last hp' =>
          cases (List.cons.inj hb).1
          exact absurd (hp.symm.trans hp') nofun
      | more hp' hm' =>
          obtain ⟨hb, hrest⟩ := List.cons.inj hb
          cases hb
          cases hp.symm.trans hp'
          obtain ⟨hc, hr⟩ := ih hm' hrest
          exact ⟨congrArg (_ ++ ·) hc, hr⟩

theorem Members.unique {bytes content content' : List UInt8} (h : Members d bytes content)
    (h' : Members d bytes content') : content = content' := by
  induction h generalizing content' with
  | nil =>
      generalize hb : ([] : List UInt8) = bytes at h'
      cases h' with
      | nil => rfl
      | cons hm _ => exact absurd (List.append_eq_nil_iff.1 hb.symm).1 hm.ne_nil
  | @cons member rest held _ hm _ ih =>
      generalize hb : member ++ rest = bytes at h'
      cases h' with
      | nil => exact absurd (List.append_eq_nil_iff.1 hb).1 hm.ne_nil
      | cons hm' hms' =>
          obtain ⟨rfl, rfl⟩ := hm.unique hm' hb
          exact congrArg (held ++ ·) (ih hms')

end

/-- **Bytes hold at most one content.** -/
theorem Decompressed.unique {decoders : Decoders}
    {bytes content content' : List UInt8} (h : Decompressed decoders bytes content)
    (h' : Decompressed decoders bytes content') : content = content' := by
  unfold Decompressed at h h'
  cases hd : detect (bytes.take magicLength) with
  | identity =>
      rw [hd] at h h'
      exact Eq.trans h (Eq.symm h')
  | _ =>
      rw [hd] at h h'
      exact Members.unique h h'

namespace Stream

variable {decoders : Decoders}

/-! ## One pass -/

/-- Output is only added to. -/
theorem feedKnown_done (s : Stream decoders) (done : Array UInt8) (bytes : List UInt8) :
    feedKnown s done bytes =
      (feedKnown s #[] bytes).map fun (t, output) => (t, done ++ output) := by
  induction bytes generalizing s done with
  | nil => simp [feedKnown, Except.map]
  | cons b bytes ih =>
      rw [feedKnown, feedKnown]
      cases s.pushKnown b with
      | error e => rfl
      | ok r =>
          obtain ⟨t, output⟩ := r
          -- both sides go on with the output of the first byte in front
          show feedKnown t (done.appendList output) bytes =
            (feedKnown t (#[].appendList output) bytes).map _
          rw [ih t (done.appendList output), ih t (#[].appendList output)]
          cases feedKnown t #[] bytes with
          | error e => rfl
          | ok r =>
              simp only [Except.map]
              congr 2
              apply Array.toList_inj.1
              simp

theorem feedKnown_append (s : Stream decoders) (done : Array UInt8) (xs ys : List UInt8) :
    feedKnown s done (xs ++ ys) =
      (feedKnown s done xs).bind fun (t, output) => feedKnown t output ys := by
  induction xs generalizing s done with
  | nil => rfl
  | cons b xs ih =>
      rw [List.cons_append, feedKnown, feedKnown]
      cases s.pushKnown b with
      | error e => rfl
      | ok r => exact ih r.1 (done.appendList r.2)

/-- A stream whose format is known. -/
def IsKnown (s : Stream decoders) : Prop := ∀ header, s ≠ .unknown header

theorem isKnown_sniff (header : List UInt8) : (sniff header : Stream decoders).IsKnown := by
  intro h
  unfold sniff
  cases detect header <;> exact nofun

theorem isKnown_pushKnown {s t : Stream decoders} {b : UInt8} {output : List UInt8}
    (hs : s.IsKnown) (h : s.pushKnown b = .ok (t, output)) : t.IsKnown := by
  -- a member that begins and one that goes on take a byte in the same way
  have hinside : ∀ {c : Compression} {u : (decoders c).State},
      pushInside c u b = .ok (t, output) → t.IsKnown := by
    intro c u h
    unfold pushInside at h
    split at h
    · cases h
      exact fun _ => nofun
    · cases h
      exact fun _ => nofun
    · exact absurd h nofun
  cases s with
  | unknown header => exact absurd rfl (hs header)
  | plain =>
      cases h
      exact fun _ => nofun
  | between c => exact hinside h
  | inside c u => exact hinside h

theorem isKnown_feedKnown {s t : Stream decoders} {done output : Array UInt8} {bytes : List UInt8}
    (hs : s.IsKnown) (h : feedKnown s done bytes = .ok (t, output)) : t.IsKnown := by
  induction bytes generalizing s done with
  | nil =>
      cases h
      exact hs
  | cons b bytes ih =>
      rw [feedKnown] at h
      cases hp : s.pushKnown b with
      | error e =>
          rw [hp] at h
          exact absurd h nofun
      | ok r =>
          rw [hp] at h
          exact ih (isKnown_pushKnown hs hp) h

/-! ## Members -/

/-- What the rest of a stream holds that stands there. -/
def Rest : Stream decoders → List UInt8 → List UInt8 → Prop
  | .unknown _, _, _ => False
  | .plain, bytes, content => content = bytes
  | .between c, bytes, content => Members (decoders c) bytes content
  | .inside c s, bytes, content => ∃ member rest held held', bytes = member ++ rest ∧
      content = held ++ held' ∧ Finishes (decoders c) s member held ∧ Members (decoders c) rest held'

/-- One byte more in front of what is inside a member. -/
theorem rest_pushInside {c : Compression} {s : (decoders c).State} {t : Stream decoders} {b : UInt8}
    {output bytes content : List UInt8} (h : pushInside c s b = .ok (t, output))
    (hr : t.Rest bytes content) :
    (Stream.inside c s : Stream decoders).Rest (b :: bytes) (output ++ content) := by
  unfold pushInside at h
  split at h
  · rename_i u out hp
    cases h
    obtain ⟨member, rest, held, held', rfl, rfl, hm, hms⟩ := hr
    exact ⟨b :: member, rest, output ++ held, held', rfl, (List.append_assoc _ _ _).symm,
      .more hp hm, hms⟩
  · rename_i out hp
    cases h
    exact ⟨[b], bytes, output, content, rfl, rfl, .last hp, hr⟩
  · exact absurd h nofun

theorem rest_pushKnown {s t : Stream decoders} {b : UInt8} {output bytes content : List UInt8}
    (hs : s.IsKnown) (h : s.pushKnown b = .ok (t, output)) (hr : t.Rest bytes content) :
    s.Rest (b :: bytes) (output ++ content) := by
  cases s with
  | unknown header => exact absurd rfl (hs header)
  | plain =>
      cases h
      obtain rfl : content = bytes := hr
      rfl
  | between c =>
      obtain ⟨member, rest, held, held', hb, hc, hm, hms⟩ := rest_pushInside h hr
      show Members (decoders c) (b :: bytes) (output ++ content)
      rw [hb, hc]
      exact .cons hm hms
  | inside c u => exact rest_pushInside h hr

/-- **One pass that may end decodes what the stream holds.** -/
theorem rest_feedKnown {s t : Stream decoders} {done output : Array UInt8} {bytes : List UInt8}
    (hs : s.IsKnown) (h : feedKnown s done bytes = .ok (t, output)) (ht : t.unfinished? = none) :
    ∃ content, output.toList = done.toList ++ content ∧ s.Rest bytes content := by
  induction bytes generalizing s done with
  | nil =>
      cases h
      refine ⟨[], (List.append_nil _).symm, ?_⟩
      cases t with
      | unknown header => exact absurd rfl (hs header)
      | plain => exact rfl
      | between c => exact .nil
      | inside c u => exact absurd ht nofun
  | cons b bytes ih =>
      rw [feedKnown] at h
      cases hp : s.pushKnown b with
      | error e =>
          rw [hp] at h
          exact absurd h nofun
      | ok r =>
          obtain ⟨u, piece⟩ := r
          rw [hp] at h
          obtain ⟨content, hout, hr⟩ := ih (isKnown_pushKnown hs hp) h
          refine ⟨piece ++ content, ?_, rest_pushKnown hs hp hr⟩
          rw [hout]
          simp

/-- What a stream holds whose format was told by its first bytes. -/
theorem decompressed_of_rest {header bytes content : List UInt8}
    (hh : header = bytes.take magicLength) (h : (sniff header : Stream decoders).Rest bytes content) :
    Decompressed decoders bytes content := by
  subst hh
  unfold sniff at h
  unfold Decompressed
  cases hd : detect (bytes.take magicLength) with
  | identity =>
      rw [hd] at h
      exact h
  | _ =>
      rw [hd] at h
      obtain ⟨member, rest, held, held', rfl, rfl, hm, hms⟩ := h
      exact .cons hm hms

/-! ## Pieces -/

/-- The reader of a stream that has seen these bytes stands there, and has decoded this. -/
def Fed (seen : List UInt8) (s : Stream decoders) (content : List UInt8) : Prop :=
  (s = .unknown seen ∧ seen.length < magicLength ∧ content = []) ∨
    (magicLength ≤ seen.length ∧ ∃ output,
      feedKnown (sniff (seen.take magicLength)) #[] seen = .ok (s, output) ∧
        content = output.toList)

theorem fed_start : Fed [] (start decoders) [] :=
  .inl ⟨rfl, by decide, rfl⟩

/-- **A further piece is decoded as if it had come with the others.** -/
theorem Fed.feed {seen content piece : List UInt8} {s t : Stream decoders} {output : Array UInt8}
    (hf : Fed seen s content) (h : s.feed piece = .ok (t, output)) :
    Fed (seen ++ piece) t (content ++ output.toList) := by
  rcases hf with ⟨rfl, _, rfl⟩ | ⟨hlen, done, hpass, rfl⟩
  · unfold Stream.feed at h
    dsimp only at h
    split at h
    · rename_i hshort
      cases h
      exact .inl ⟨rfl, hshort, rfl⟩
    · rename_i hlong
      exact .inr ⟨by omega, output, h, rfl⟩
  · have hknown : s.IsKnown := isKnown_feedKnown (isKnown_sniff _) hpass
    have hfeed : s.feed piece = feedKnown s #[] piece := by
      cases s with
      | unknown header => exact absurd rfl (hknown header)
      | _ => rfl
    rw [hfeed] at h
    refine .inr ⟨by rw [List.length_append]; omega, done ++ output, ?_, ?_⟩
    · rw [List.take_append_of_le_length hlen, feedKnown_append, hpass]
      show feedKnown s done piece = _
      rw [feedKnown_done, h]
      rfl
    · rw [Array.toList_append]

/-- **A stream that may end holds what was decoded of it.** -/
theorem Fed.decompressed {seen content : List UInt8} {s t : Stream decoders} {output : Array UInt8}
    (hf : Fed seen s content) (h : s.close = .ok (t, output)) :
    Decompressed decoders seen (content ++ output.toList) := by
  have hclose : s.finish = .ok (t, output) ∧ t.unfinished? = none := by
    unfold close at h
    split at h
    · exact absurd h nofun
    · rename_i u out hfin
      split at h
      · exact absurd h nofun
      · rename_i hu
        cases h
        exact ⟨hfin, hu⟩
  obtain ⟨hfin, hu⟩ := hclose
  rcases hf with ⟨rfl, hlen, rfl⟩ | ⟨hlen, done, hpass, rfl⟩
  · -- all bytes together are too few for the format, which is told by what there is
    obtain ⟨held, hout, hr⟩ := rest_feedKnown (isKnown_sniff _) hfin hu
    rw [hout]
    exact decompressed_of_rest (List.take_of_length_le (by omega)).symm hr
  · have hknown : s.IsKnown := isKnown_feedKnown (isKnown_sniff _) hpass
    have hsame : t = s ∧ output = #[] := by
      cases s with
      | unknown header => exact absurd rfl (hknown header)
      | _ =>
          cases hfin
          exact ⟨rfl, rfl⟩
    obtain ⟨rfl, rfl⟩ := hsame
    obtain ⟨held, hout, hr⟩ := rest_feedKnown (isKnown_sniff _) hpass hu
    rw [hout, List.append_nil]
    exact decompressed_of_rest rfl hr

end Stream

end ImageTransfer.Compression
