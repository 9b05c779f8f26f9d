import ImageTransfer.Proofs.Exchange.Dialogue

/-!
# What operations write out

A write that is accepted adds its bytes to the sink, and one that is refused leaves the sink full. So
a run that has failed without filling the sink has not failed by writing.
-/

namespace ImageTransfer

namespace Sink

theorem isFull_write {s : Sink} {piece : List UInt8} (h : s.refuses piece = true) :
    (s.write piece).isFull = true := by rw [write, if_pos h]

/-- What comes of writes one after the other, up to the first that is refused. -/
def writeAll (s : Sink) : List (List UInt8) → Except Failure Unit × Sink
  | [] => (.ok (), s)
  | piece :: pieces =>
    if s.refuses piece then (.error (.system s.refusal), s.write piece)
    else (s.write piece).writeAll pieces

/-- **Without a limit everything is written.** -/
theorem writeAll_unlimited {s : Sink} (hlimit : s.limit = none) (hfull : s.isFull = false)
    (pieces : List (List UInt8)) : (s.writeAll pieces).1 = .ok () := by
  induction pieces generalizing s with
  | nil => rfl
  | cons piece pieces ih =>
      have hrefuses : s.refuses piece = false := by
        rw [refuses, hfull, hlimit]
        rfl
      have hwrite : (s.write piece).limit = none ∧ (s.write piece).isFull = false := by
        rw [write, if_neg (by rw [hrefuses]; decide)]
        exact ⟨hlimit, hfull⟩
      rw [writeAll, if_neg (by rw [hrefuses]; decide)]
      exact ih hwrite.1 hwrite.2

end Sink

namespace Exchange

variable {w w' : World}

/-- Between two worlds nothing happened but writes to the sink. -/
structure Writing (w w' : World) : Prop where
  talk : Talk w [] w'
  disk : w'.disk = w.disk

theorem Writing.refl (w : World) : Writing w w := ⟨.refl w, rfl⟩

theorem Writing.trans {u v w : World} (h₁ : Writing u v) (h₂ : Writing v w) : Writing u w :=
  ⟨h₁.talk.trans h₂.talk, h₂.disk.trans h₁.disk⟩

theorem write_run (piece : List UInt8) (w : World) :
    write piece w =
      (if w.sink.refuses piece then .error (.system w.sink.refusal) else .ok (),
        { w with sink := w.sink.write piece }) := by
  have hwritten : (modifyGet (·.write piece) : Exchange Bool) w =
      (.ok (w.sink.refuses piece), { w with sink := w.sink.write piece }) := rfl
  unfold write
  rw [bind_run hwritten]
  cases hr : w.sink.refuses piece with
  | true =>
      have hsame : (w.sink.write piece).refusal = w.sink.refusal := by rw [Sink.write, if_pos hr]
      rw [if_pos rfl, if_pos rfl, ← hsame]
      rfl
  | false => rfl

theorem Frame.Recording.keeps_write {F : Frame} (hF : F.Recording) (piece : List UInt8) :
    Keeps F (write piece) := by
  intro w
  rw [write_run]
  exact hF.of_eq rfl rfl

/-- A write adds its bytes, or it fails and the sink is full. -/
theorem write_cases {piece : List UInt8} {r : Except Failure Unit} (h : write piece w = (r, w')) :
    Writing w w' ∧ ((r = .ok () ∧ w'.sink.bytes = w.sink.bytes ++ piece) ∨
      ((∃ e, r = .error e) ∧ w'.sink.isFull = true)) := by
  rw [write_run] at h
  obtain ⟨rfl, rfl⟩ := Prod.mk.inj h
  refine ⟨⟨.of_eq rfl rfl rfl, rfl⟩, ?_⟩
  split
  · rename_i hrefused
    exact .inr ⟨⟨_, rfl⟩, Sink.isFull_write hrefused⟩
  · rename_i hrefused
    refine .inl ⟨rfl, ?_⟩
    show (w.sink.write piece).bytes = _
    rw [Sink.bytes_write, if_neg hrefused]

/-- **What comes of writes depends on the sink alone.** -/
theorem forM_write (pieces : List (List UInt8)) (w : World) :
    pieces.forM write w =
      ((w.sink.writeAll pieces).1, { w with sink := (w.sink.writeAll pieces).2 }) := by
  induction pieces generalizing w with
  | nil => rfl
  | cons piece pieces ih =>
      have hwrite := write_run piece w
      show (write piece >>= fun _ => pieces.forM write) w = _
      rw [Sink.writeAll]
      split
      · rename_i hrefused
        rw [if_pos hrefused] at hwrite
        exact bind_error hwrite
      · rename_i hrefused
        rw [if_neg hrefused] at hwrite
        rw [bind_run hwrite, ih]

theorem Frame.Recording.keeps_writes {F : Frame} (hF : F.Recording) (pieces : List (List UInt8)) :
    Keeps F (pieces.forM write) := by
  intro w
  rw [forM_write]
  exact hF.of_eq rfl rfl

/-- **Writes one after the other add all their bytes, or one of them fails.** -/
theorem writes_cases {pieces : List (List UInt8)} {w w' : World} {r : Except Failure Unit}
    (h : pieces.forM write w = (r, w')) :
    Writing w w' ∧ ((r = .ok () ∧ w'.sink.bytes = w.sink.bytes ++ pieces.flatten) ∨
      ((∃ e, r = .error e) ∧ w'.sink.isFull = true)) := by
  induction pieces generalizing w with
  | nil =>
      obtain ⟨rfl, rfl⟩ := pure_inv h
      exact ⟨.refl _, .inl ⟨rfl, by simp⟩⟩
  | cons piece pieces ih =>
      change (write piece >>= fun _ => pieces.forM write) w = _ at h
      obtain ⟨_, w₁, h₁, h₂⟩ | ⟨e, h₁, rfl⟩ := bind_cases h
      · obtain ⟨hw₁, ⟨_, hb⟩ | ⟨⟨_, he⟩, _⟩⟩ := write_cases h₁
        · obtain ⟨hw₂, hr⟩ := ih h₂
          refine ⟨hw₁.trans hw₂, ?_⟩
          rw [hb, List.append_assoc] at hr
          exact hr
        · exact absurd he (by simp)
      · obtain ⟨hw₁, ⟨he, _⟩ | hr⟩ := write_cases h₁
        · exact absurd he (by simp)
        · exact ⟨hw₁, .inr hr⟩

end Exchange

end ImageTransfer
