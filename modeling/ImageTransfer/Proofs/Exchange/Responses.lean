import ImageTransfer.Proofs.Exchange.Disk
import Mathlib.Algebra.Ring.Int.Defs

/-!
# Responses that are open

A response is open from the moment it comes until it is released. Of the events of a run an opening
adds one to the open responses, a release takes one away, and nothing else matters. `Handled limit`
says of events that at no moment more than `limit` responses are open, that no more are released than
were opened, and that none is open in the end.

Events that are handled may follow one another, and they may come between the opening of a response
and its release, which takes room for one more (`Handled.around`). So the frame `handling limit` lets a
client use a response in any way that keeps to the frame with one less (`handling_serving`).
-/

namespace ImageTransfer

/-- How many responses are open after events if none was open before. -/
def openAfter (es : List Event) : Int := (es.map Event.held).sum

@[simp] theorem openAfter_nil : openAfter [] = 0 := rfl

@[simp] theorem openAfter_cons (e : Event) (es : List Event) :
    openAfter (e :: es) = e.held + openAfter es := by
  simp [openAfter]

@[simp] theorem openAfter_append (es es' : List Event) :
    openAfter (es ++ es') = openAfter es + openAfter es' := by
  simp [openAfter]

/-- Every response that is opened is released, and at no moment more than `limit` are open. -/
structure Handled (limit : Nat) (es : List Event) : Prop where
  /-- In the end none is open. -/
  released : openAfter es = 0
  /-- After any number of events no more were released than opened, and no more are open than there
  is room for. -/
  bounded : ∀ n, 0 ≤ openAfter (es.take n) ∧ openAfter (es.take n) ≤ limit

namespace Handled

variable {limit : Nat} {es es' : List Event}

theorem nil (limit : Nat) : Handled limit [] where
  released := rfl
  bounded n := by
    rw [List.take_nil, openAfter_nil]
    omega

/-- An event that opens and releases nothing. -/
theorem single (limit : Nat) {e : Event} (he : e.held = 0) : Handled limit [e] where
  released := by rw [openAfter_cons, he, openAfter_nil]; rfl
  bounded n := by
    cases n with
    | zero =>
        rw [List.take_zero, openAfter_nil]
        omega
    | succ n =>
        rw [List.take_succ_cons, List.take_nil, openAfter_cons, he, openAfter_nil]
        omega

/-- **Handled events may follow one another**, for none is open in between. -/
theorem append (h : Handled limit es) (h' : Handled limit es') : Handled limit (es ++ es') where
  released := by rw [openAfter_append, h.released, h'.released]; rfl
  bounded n := by
    rw [List.take_append, openAfter_append]
    rcases Nat.le_total n es.length with hn | hn
    · -- only the first events have begun
      have hbound := h.bounded n
      rw [Nat.sub_eq_zero_of_le hn, List.take_zero, openAfter_nil]
      omega
    · have hbound := h'.bounded (n - es.length)
      rw [List.take_of_length_le hn, h.released]
      omega

/-- **A response may be used in any way that leaves room for it.** -/
theorem around (response : Response) (h : Handled limit es) :
    Handled (limit + 1) (.opened response :: (es ++ [.released])) where
  released := by
    rw [openAfter_cons, openAfter_append, h.released]
    rfl
  bounded n := by
    have hone : (Event.opened response).held = 1 := rfl
    cases n with
    | zero =>
        rw [List.take_zero, openAfter_nil]
        omega
    | succ n =>
        have hbound := h.bounded n
        rw [List.take_succ_cons, List.take_append, openAfter_cons, openAfter_append, hone]
        rcases Nat.lt_or_ge es.length n with hn | hn
        · -- all is done with the response, and it is released
          obtain ⟨k, hk⟩ : ∃ k, n - es.length = k + 1 := ⟨n - es.length - 1, by omega⟩
          have hlast : openAfter ([Event.released].take (k + 1)) = -1 := by
            rw [List.take_succ_cons, List.take_nil]
            rfl
          rw [hk, hlast, List.take_of_length_le (Nat.le_of_lt hn), h.released]
          omega
        · rw [Nat.sub_eq_zero_of_le hn, List.take_zero, openAfter_nil]
          omega

end Handled

namespace Exchange

variable {α : Type} {limit : Nat} {w w' : World}

/-- All responses that are opened are released, and at no moment more than `limit` are open. -/
def handling (limit : Nat) : Frame where
  rel w w' := ∃ es, w'.events.toList = w.events.toList ++ es ∧ Handled limit es
  refl _ := ⟨[], (List.append_nil _).symm, .nil limit⟩
  trans := by
    rintro u v w ⟨es, he, h⟩ ⟨es', he', h'⟩
    refine ⟨es ++ es', ?_, h.append h'⟩
    rw [he', he, List.append_assoc]

theorem handling_recording : (handling limit).Recording where
  of_eq h _ := ⟨[], by rw [h, List.append_nil], .nil limit⟩

theorem handling_note (w : World) {e : Event} (he : e.held = 0) :
    (handling limit).rel w (w.note e) :=
  ⟨[e], Array.toList_push, .single limit he⟩

instance handling_hears {listens : Bool} : (handling limit).Hears listens :=
  ⟨fun _ w _ _ _ => handling_note w rfl⟩

theorem handling_calm : (handling limit).Calm where
  note w _ _ he := handling_note w he
  session w _ _ := handling_note { w with hasSession := true } rfl

/-- What is sent is an event, and so is the response that comes of it. -/
theorem send_events {q : Request} {r : Except Failure (Except Fault Response)}
    (h : send q w = (r, w')) :
    (∃ f, r = .ok (.error f) ∧ w'.events.toList = w.events.toList ++ [.sent q]) ∨
      ∃ response, r = .ok (.ok response) ∧
        w'.events.toList = w.events.toList ++ [.sent q, .opened response] := by
  have hsent : (w.note (.sent q)).events.toList = w.events.toList ++ [.sent q] := Array.toList_push
  rw [send_run] at h
  split at h
  · obtain ⟨rfl, rfl⟩ := Prod.mk.inj h
    exact .inl ⟨_, rfl, hsent⟩
  · obtain ⟨rfl, rfl⟩ := Prod.mk.inj h
    exact .inl ⟨_, rfl, hsent⟩
  · rename_i response rest _
    obtain ⟨rfl, rfl⟩ := Prod.mk.inj h
    refine .inr ⟨response, rfl, ?_⟩
    show ((w.note (.sent q)).events.push (.opened response)).toList = _
    rw [Array.toList_push, hsent, List.append_assoc]
    rfl

/-- **Whatever is done with a response, it takes room for one more than that.** -/
theorem handling_serving : (handling (limit + 1)).Serving (handling limit) where
  toCalm := handling_calm
  answered q x use hfault hok hu := by
    refine keeps_of_rel fun w r w' h => ?_
    rcases bind_cases h with ⟨answer, w₁, hsend, hx⟩ | ⟨e, hsend, _⟩
    · rcases send_events hsend with ⟨f, hr, hevents⟩ | ⟨response, hr, hevents⟩
      · cases hr
        have hrest := (hfault f).rel hx
        have hsent : (handling (limit + 1)).rel w w₁ := ⟨_, hevents, .single _ rfl⟩
        exact (handling (limit + 1)).trans hsent hrest
      · cases hr
        rw [hok response] at hx
        obtain ⟨w₂, hused, rfl⟩ := releasing_inv hx
        obtain ⟨es, he, hes⟩ := (hu response).rel hused
        refine ⟨.sent q :: (.opened response :: (es ++ [.released])), ?_, ?_⟩
        · show (w₂.events.push .released).toList = _
          rw [Array.toList_push, he, hevents]
          simp
        · exact (Handled.single (limit + 1) (e := .sent q) rfl).append (hes.around response)
    · rcases send_events hsend with ⟨f, hr, _⟩ | ⟨response, hr, _⟩
      · exact absurd hr nofun
      · exact absurd hr nofun

end Exchange

end ImageTransfer
