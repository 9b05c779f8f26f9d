import ImageTransfer.Proofs.Exchange.Run

/-!
# What a run says to registries and hears from them

The dialogue between two worlds is the list of the requests that were sent in between, each with
what came of it. It is computed from what a run leaves behind, the events, and from what it was given,
the script of answers.

`Talk` is the same as a relation, which is what the proofs work with: a run that goes through several
worlds has said what it said between each of them and the next (`Talk.trans`). What a client says and
hears leaves the machine alone, which is `Untouched`.
-/

namespace ImageTransfer

/-- Requests, each with what came of it. -/
abbrev Dialogue := List (Request × Answer)

/-- What comes of the next requests: what the script says, and after that silence. -/
def replies (silence : Fault) : List Answer → Nat → List Answer
  | _, 0 => []
  | [], n + 1 => .fault silence :: replies silence [] n
  | a :: rest, n + 1 => a :: replies silence rest n

@[simp] theorem length_replies (silence : Fault) (script : List Answer) (n : Nat) :
    (replies silence script n).length = n := by
  induction n generalizing script with
  | zero => cases script <;> rfl
  | succ n ih => cases script <;> simp [replies, ih]

/-- Two parts of a dialogue hear the two parts of the script. -/
theorem replies_add (silence : Fault) (script : List Answer) (m n : Nat) :
    replies silence script (m + n) =
      replies silence script m ++ replies silence (script.drop m) n := by
  induction m generalizing script with
  | zero => cases script <;> simp [replies]
  | succ m ih =>
      rw [Nat.succ_add]
      cases script with
      | nil =>
          have := ih []
          simp only [List.drop_nil] at this ⊢
          simp [replies, this]
      | cons a rest => simp [replies, ih rest]

/-- A script in which answer number `i` is another one. -/
theorem replies_set (silence : Fault) (script : List Answer) (a : Answer) (i n : Nat) :
    replies silence (replies silence script i ++ a :: script.drop (i + 1)) n =
      (replies silence script n).set i a := by
  induction i generalizing script n with
  | zero =>
      cases n with
      | zero => cases script <;> rfl
      | succ n => cases script <;> simp [replies]
  | succ i ih =>
      cases n with
      | zero => cases script <;> rfl
      | succ n =>
          cases script with
          | nil =>
              have := ih [] n
              rw [List.drop_nil] at this ⊢
              show _ :: replies silence (replies silence [] i ++ [a]) n = _
              rw [this]; rfl
          | cons b rest =>
              show b :: replies silence (replies silence rest i ++ a :: rest.drop (i + 1)) n = _
              rw [ih]; rfl

namespace World

/-- The world in which request number `i` from now on, counted from zero, is answered like this. -/
def answering (w : World) (i : Nat) (a : Answer) : World :=
  { w with answers := replies w.silence w.answers i ++ a :: w.answers.drop (i + 1) }

/-- The requests that were sent since an earlier world. -/
def requestsSince (w w' : World) : List Request :=
  (w'.events.toList.drop w.events.size).filterMap Event.request?

/-- What was said and heard since an earlier world. -/
def dialogue (w w' : World) : Dialogue :=
  (w.requestsSince w').zip (replies w.silence w.answers (w.requestsSince w').length)

end World

/-- Between two worlds this was said and heard. -/
structure Talk (w : World) (d : Dialogue) (w' : World) : Prop where
  /-- The record of events has grown, and the requests in its new part are those of the dialogue. -/
  events : ∃ es, w'.events.toList = w.events.toList ++ es ∧
    es.filterMap Event.request? = d.map Prod.fst
  /-- The answers are the next ones of the script. -/
  heard : d.map Prod.snd = replies w.silence w.answers d.length
  /-- The script goes on after them. -/
  answers : w'.answers = w.answers.drop d.length
  silence : w'.silence = w.silence

namespace Talk

theorem refl (w : World) : Talk w [] w :=
  ⟨⟨[], by simp⟩, by cases h : w.answers <;> rfl, rfl, rfl⟩

theorem trans {u v w : World} {d₁ d₂ : Dialogue} (h₁ : Talk u d₁ v) (h₂ : Talk v d₂ w) :
    Talk u (d₁ ++ d₂) w := by
  obtain ⟨es₁, he₁, hd₁⟩ := h₁.events
  obtain ⟨es₂, he₂, hd₂⟩ := h₂.events
  refine ⟨⟨es₁ ++ es₂, ?_, ?_⟩, ?_, ?_, h₂.silence.trans h₁.silence⟩
  · rw [he₂, he₁, List.append_assoc]
  · rw [List.filterMap_append, hd₁, hd₂, List.map_append]
  · rw [List.map_append, List.length_append, replies_add, h₁.heard, h₂.heard, h₁.silence,
      h₁.answers]
  · rw [h₂.answers, h₁.answers, List.drop_drop, List.length_append]

/-- A part of a run in which nothing is said may come before. -/
theorem after {u v w : World} {d : Dialogue} (h₁ : Talk u [] v) (h₂ : Talk v d w) : Talk u d w :=
  h₁.trans h₂

/-- A part of a run in which nothing is said may come after. -/
theorem before {u v w : World} {d : Dialogue} (h₁ : Talk u d v) (h₂ : Talk v [] w) : Talk u d w := by
  have := h₁.trans h₂
  rwa [List.append_nil] at this

/-- What happens without a request says nothing. -/
theorem note (w : World) {e : Event} (he : e.request? = none) : Talk w [] (w.note e) := by
  refine ⟨⟨[e], ?_, ?_⟩, ?_, rfl, rfl⟩
  · simp [World.note]
  · simp [he]
  · exact (refl w).heard

/-- The rest of the world does not matter. -/
theorem of_eq {w w' : World} (he : w'.events = w.events) (ha : w'.answers = w.answers)
    (hs : w'.silence = w.silence) : Talk w [] w' :=
  ⟨⟨[], by simp [he]⟩, (refl w).heard, ha, hs⟩

theorem sessionOpened (w : World) (timeout : Nat) : Talk w [] (w.sessionOpened timeout) := by
  have hmarked : Talk w [] { w with hasSession := true } := of_eq rfl rfl rfl
  exact hmarked.after (note _ rfl)

theorem requestsSince_eq {w w' : World} {d : Dialogue} (h : Talk w d w') :
    w.requestsSince w' = d.map Prod.fst := by
  obtain ⟨es, he, hd⟩ := h.events
  rw [World.requestsSince, he, ← Array.length_toList, List.drop_left, hd]

/-- **What was said between two worlds can be read off them.** -/
theorem dialogue_eq {w w' : World} {d : Dialogue} (h : Talk w d w') : w.dialogue w' = d := by
  rw [World.dialogue, h.requestsSince_eq, List.length_map, ← h.heard, List.zip_map', List.map_id'']
  intro p; rfl

end Talk

/-- What a client does with the machine between two worlds: nothing. -/
structure Untouched (w w' : World) : Prop where
  sink : w'.sink = w.sink
  disk : w'.disk = w.disk
  names : w'.names = w.names
  named : w'.named = w.named
  temporary : w'.temporary = w.temporary
  refusals : w'.refusal? = w.refusal?
  changes : w'.changes = w.changes

namespace Untouched

theorem of_eq {w w' : World}
    (h : (w'.sink, w'.disk, w'.names, w'.named, w'.temporary, w'.refusal?, w'.changes) =
      (w.sink, w.disk, w.names, w.named, w.temporary, w.refusal?, w.changes)) : Untouched w w' := by
  simp only [Prod.mk.injEq] at h
  exact ⟨h.1, h.2.1, h.2.2.1, h.2.2.2.1, h.2.2.2.2.1, h.2.2.2.2.2.1, h.2.2.2.2.2.2⟩

theorem refl (w : World) : Untouched w w := .of_eq rfl

theorem note (w : World) (e : Event) : Untouched w (w.note e) := .of_eq rfl

theorem symm {w w' : World} (h : Untouched w w') : Untouched w' w :=
  ⟨h.sink.symm, h.disk.symm, h.names.symm, h.named.symm, h.temporary.symm, h.refusals.symm,
    h.changes.symm⟩

theorem trans {u v w : World} (h₁ : Untouched u v) (h₂ : Untouched v w) : Untouched u w :=
  ⟨h₂.sink.trans h₁.sink, h₂.disk.trans h₁.disk, h₂.names.trans h₁.names,
    h₂.named.trans h₁.named, h₂.temporary.trans h₁.temporary, h₂.refusals.trans h₁.refusals,
    h₂.changes.trans h₁.changes⟩

end Untouched

namespace Exchange

variable {α : Type}

/-- What comes of a request, as a program gets it. -/
def outcome : Answer → Except Fault Response
  | .response r => .ok r
  | .fault f => .error f

theorem send_run (q : Request) (w : World) :
    send q w =
      match w.answers with
      | [] => (.ok (.error w.silence), w.note (.sent q))
      | .fault f :: rest => (.ok (.error f), { w.note (.sent q) with answers := rest })
      | .response r :: rest =>
        (.ok (.ok r), ({ w.note (.sent q) with answers := rest }).note (.opened r)) := by
  obtain ⟨answers⟩ := w
  cases answers with
  | nil => rfl
  | cons a rest => cases a <;> rfl

/-- A request is answered by the next answer of the script. -/
theorem send_cases {q : Request} {w w' : World} {r : Except Failure (Except Fault Response)}
    (h : send q w = (r, w')) :
    ∃ a, r = .ok (outcome a) ∧ Talk w [(q, a)] w' ∧ Untouched w w' := by
  have hsent : (w.note (.sent q)).events.toList = w.events.toList ++ [.sent q] := by
    simp [World.note]
  rw [send_run] at h
  split at h
  · rename_i ha
    obtain ⟨rfl, rfl⟩ := Prod.mk.inj h
    refine ⟨.fault w.silence, rfl, ⟨⟨[.sent q], hsent, rfl⟩, ?_, ?_, rfl⟩, .of_eq rfl⟩
    · simp [ha, replies]
    · show w.answers = _
      simp [ha]
  · rename_i f rest ha
    obtain ⟨rfl, rfl⟩ := Prod.mk.inj h
    refine ⟨.fault f, rfl, ⟨⟨[.sent q], hsent, rfl⟩, ?_, ?_, rfl⟩, .of_eq rfl⟩
    · simp [ha, replies]
    · show rest = _
      simp [ha]
  · rename_i response rest ha
    obtain ⟨rfl, rfl⟩ := Prod.mk.inj h
    refine ⟨.response response, rfl, ⟨⟨[.sent q, .opened response], ?_, rfl⟩, ?_, ?_, rfl⟩,
      .of_eq rfl⟩
    · show ((w.note (.sent q)).events.push (.opened response)).toList = _
      rw [Array.toList_push, hsent, List.append_assoc]
      rfl
    · simp [ha, replies]
    · show rest = _
      simp [ha]

/-- In every run something is said and heard, if only nothing. -/
def talks : Frame where
  rel w w' := ∃ d, Talk w d w'
  refl w := ⟨[], .refl w⟩
  trans := fun ⟨_, h₁⟩ ⟨_, h₂⟩ => ⟨_, h₁.trans h₂⟩

instance talks_hears {listens : Bool} : talks.Hears listens := ⟨fun _ w _ _ _ => ⟨[], .note w rfl⟩⟩

theorem talks_online : talks.Online where
  note w _ he := ⟨[], .note w he.request⟩
  session w timeout _ := ⟨[], .sessionOpened w timeout⟩
  send q := keeps_of_rel fun _ _ _ h => let ⟨a, _, ht, _⟩ := send_cases h; ⟨[(q, a)], ht⟩

/-- Nothing is said. -/
def silent : Frame where
  rel w w' := Talk w [] w'
  refl w := .refl w
  trans h₁ h₂ := h₁.trans h₂

instance silent_hears {listens : Bool} : silent.Hears listens := ⟨fun _ w _ _ _ => .note w rfl⟩

theorem silent_quiet : silent.Quiet where
  note w _ he := .note w he.request
  session w timeout _ := .sessionOpened w timeout

/-- The machine is left alone. -/
def untouched : Frame where
  rel := Untouched
  refl := .refl
  trans := .trans

instance untouched_hears {listens : Bool} : untouched.Hears listens :=
  ⟨fun _ w _ _ _ => .note w _⟩

theorem untouched_online : untouched.Online where
  note w e _ := .note w e
  session _ _ _ := .of_eq rfl
  send _ := keeps_of_rel fun _ _ _ h => let ⟨_, _, _, hu⟩ := send_cases h; hu

/-- A client that has to have a session gets it without a word. -/
theorem ensureSession_bind {f : Unit → Exchange α} {timeout : Nat} {w w' : World}
    {r : Except Failure α} (h : (ensureSession timeout >>= f) w = (r, w')) :
    ∃ w₁, Talk w [] w₁ ∧ Untouched w w₁ ∧ f () w₁ = (r, w') := by
  rcases bind_cases h with ⟨_, w₁, hs, h⟩ | ⟨e, hs, _⟩
  · exact ⟨w₁, (silent_quiet.calm.keeps_ensureSession timeout).rel hs,
      (untouched_online.calm.keeps_ensureSession timeout).rel hs, h⟩
  · exact absurd (ensureSession_ok hs) (by simp)

theorem note_bind {f : Unit → Exchange α} {e : Event} (he : e.request? = none) {w w' : World}
    {r : Except Failure α} (h : (note e >>= f) w = (r, w')) :
    ∃ w₁, Talk w [] w₁ ∧ Untouched w w₁ ∧ f () w₁ = (r, w') :=
  ⟨w.note e, .note w he, .note w e, h⟩

/-- A session is opened and closed without a word. -/
theorem withSession_cases {timeout : Nat} {x : Exchange α} {w w' : World} {r : Except Failure α}
    (h : withSession timeout x w = (r, w')) :
    ∃ w₁ w₂, Talk w [] w₁ ∧ Untouched w w₁ ∧ x w₁ = (r, w₂) ∧ Talk w₂ [] w' ∧ Untouched w₂ w' := by
  obtain ⟨w₁, ht, hu, h⟩ := ensureSession_bind h
  obtain ⟨w₂, hx, rfl⟩ := withCleanup_inv h
  refine ⟨w₁, w₂, ht, hu, hx, ?_⟩
  unfold closed
  split
  · have hleft : Talk w₂ [] { w₂ with hasSession := false } := .of_eq rfl rfl rfl
    exact ⟨hleft.before (.note _ rfl), .of_eq rfl⟩
  · exact ⟨.refl w₂, .refl w₂⟩

/-- A request whose response is used: it is answered by a fault, or by the response, and until then
the run has kept to every frame that does not mind requests. -/
theorem withResponse_online {F : Frame} (hF : F.Online) {q : Request} {explain : String → Failure}
    {use : Response → Exchange α} {w w' : World} {r : Except Failure α}
    (h : withResponse q explain use w = (r, w')) :
    (∃ f, Talk w [(q, .fault f)] w' ∧ F.rel w w' ∧ r = .error (f.failure explain)) ∨
      ∃ response w₁ w₂, Talk w [(q, .response response)] w₁ ∧ F.rel w w₁ ∧
        use response w₁ = (r, w₂) ∧ w' = w₂.note .released := by
  rcases bind_cases h with ⟨o, w₁, hs, h⟩ | ⟨e, hs, _⟩
  · have hm := (hF.send q).rel hs
    obtain ⟨a, ho, ht, _⟩ := send_cases hs
    cases a with
    | fault f =>
        cases ho
        obtain ⟨rfl, rfl⟩ := throw_inv h
        exact .inl ⟨f, ht, hm, rfl⟩
    | response response =>
        cases ho
        obtain ⟨w₂, hu, rfl⟩ := releasing_inv h
        exact .inr ⟨response, w₁, w₂, ht, hm, hu, rfl⟩
  · obtain ⟨a, ho, _⟩ := send_cases hs
    exact absurd ho (by simp)

/-- The same, of which the machine is left alone. -/
theorem withResponse_cases {q : Request} {explain : String → Failure} {use : Response → Exchange α}
    {w w' : World} {r : Except Failure α} (h : withResponse q explain use w = (r, w')) :
    (∃ f, Talk w [(q, .fault f)] w' ∧ Untouched w w' ∧ r = .error (f.failure explain)) ∨
      ∃ response w₁ w₂, Talk w [(q, .response response)] w₁ ∧ Untouched w w₁ ∧
        use response w₁ = (r, w₂) ∧ w' = w₂.note .released :=
  withResponse_online untouched_online h

/-- What is made of an answer whose response is only calculated with. -/
def result (a : Answer) (explain : String → Failure) (g : Response → Except Failure α) :
    Except Failure α :=
  match a with
  | .response r => g r
  | .fault f => .error (f.failure explain)

/-- A request whose response is only calculated with. -/
theorem withResponse_result {q : Request} {explain : String → Failure}
    {use : Response → Exchange α} {g : Response → Except Failure α} {w w' : World}
    {r : Except Failure α} (hg : ∀ response, Calculates (use response) (g response))
    (h : withResponse q explain use w = (r, w')) :
    ∃ a, Talk w [(q, a)] w' ∧ Untouched w w' ∧ r = result a explain g := by
  rcases withResponse_cases h with ⟨f, ht, hu, rfl⟩ | ⟨response, w₁, w₂, ht, hu, h₂, rfl⟩
  · exact ⟨.fault f, ht, hu, rfl⟩
  · rw [hg response w₁] at h₂
    obtain ⟨rfl, rfl⟩ := Prod.mk.inj h₂
    exact ⟨.response response, ht.before (.note w₁ rfl),
      hu.trans (.note w₁ _), rfl⟩

/-- The same where a fault of the network is made up for. -/
theorem withResponseOr_cases {q : Request} {otherwise : Exchange α} {use : Response → Exchange α}
    {w w' : World} {r : Except Failure α} (h : withResponseOr q otherwise use w = (r, w')) :
    (∃ f w₁, Talk w [(q, .fault f)] w₁ ∧ Untouched w w₁ ∧
        ((f.isNetwork = true ∧ otherwise w₁ = (r, w')) ∨
          (f.isNetwork = false ∧ r = .error (.system f.text) ∧ w' = w₁))) ∨
      ∃ response w₁ w₂, Talk w [(q, .response response)] w₁ ∧ Untouched w w₁ ∧
        use response w₁ = (r, w₂) ∧ w' = w₂.note .released := by
  rcases bind_cases h with ⟨o, w₁, hs, h⟩ | ⟨e, hs, _⟩
  · obtain ⟨a, ho, ht, hm⟩ := send_cases hs
    cases a with
    | fault f =>
        cases ho
        refine .inl ⟨f, w₁, ht, hm, ?_⟩
        change (if f.isNetwork = true then otherwise else throw (.system f.text)) w₁ = _ at h
        split at h
        · rename_i hn
          exact .inl ⟨hn, h⟩
        · rename_i hn
          obtain ⟨rfl, rfl⟩ := throw_inv h
          exact .inr ⟨by simpa using hn, rfl, rfl⟩
    | response response =>
        cases ho
        obtain ⟨w₂, hu, rfl⟩ := releasing_inv h
        exact .inr ⟨response, w₁, w₂, ht, hm, hu, rfl⟩
  · obtain ⟨a, ho, _⟩ := send_cases hs
    exact absurd ho (by simp)

end Exchange

end ImageTransfer
