import ImageTransfer.Proofs.Exchange.Dialogue

/-!
# Reports of progress

Reports go to whoever listens to a run, and requests go to registries. Where the two stand to one
another is in the marks of a run: its requests and reports in the order in which they were made. A run
that reports nothing leaves a mark for each request of its dialogue and no others (`Speech.marks`), so
its marks are known from what it says.
-/

namespace ImageTransfer

/-- Something by which one can tell how far a run has come. -/
inductive Mark
  | request (q : Request)
  /-- So much is done, of so much. -/
  | report (current total : Int)

/-- The mark that an event is. -/
def Event.mark? : Event → Option Mark
  | .sent q => some (.request q)
  | .progressed current total _ => some (.report current total)
  | _ => none

/-- What a mark reports. -/
def Mark.report? : Mark → Option (Int × Int)
  | .report current total => some (current, total)
  | .request _ => none

namespace World

/-- The requests and reports since an earlier world, in their order. -/
def marksSince (w w' : World) : List Mark := w.seenSince Event.mark? w'

/-- The reports since an earlier world: how much was done, and of how much. -/
def reportsSince (w w' : World) : List (Int × Int) := w.seenSince Event.report? w'

/-- The reports are among the marks. -/
theorem reportsSince_eq (w w' : World) :
    w.reportsSince w' = (w.marksSince w').filterMap Mark.report? := by
  rw [reportsSince, marksSince, seenSince, seenSince, List.filterMap_filterMap]
  congr 1
  funext e
  cases e <;> rfl

end World

/-- Between two worlds this was said and heard, and nothing was reported. -/
structure Speech (w : World) (d : Dialogue) (w' : World) : Prop where
  talk : Talk w d w'
  unreported : Shows Event.report? w [] w'

namespace Speech

variable {u v w w' : World} {d d' : Dialogue}

theorem refl (w : World) : Speech w [] w := ⟨.refl w, .refl w⟩

theorem trans (h₁ : Speech u d v) (h₂ : Speech v d' w) : Speech u (d ++ d') w :=
  ⟨h₁.talk.trans h₂.talk, h₁.unreported.trans h₂.unreported⟩

theorem after (h₁ : Speech u [] v) (h₂ : Speech v d w) : Speech u d w := h₁.trans h₂

theorem before (h₁ : Speech u d v) (h₂ : Speech v [] w) : Speech u d w :=
  ⟨h₁.talk.before h₂.talk, h₁.unreported.before h₂.unreported⟩

/-- The rest of the world does not matter. -/
theorem of_eq (he : w'.events = w.events) (ha : w'.answers = w.answers)
    (hs : w'.silence = w.silence) : Speech w [] w' := ⟨.of_eq he ha hs, .of_eq he⟩

theorem note (w : World) {e : Event} (he : e.request? = none) (hr : e.report? = none) :
    Speech w [] (w.note e) := ⟨.note w he, .note_of_eq w hr⟩

/-- Of events without reports the marks are the requests. -/
theorem filterMap_mark {es : List Event} (h : es.filterMap Event.report? = []) :
    es.filterMap Event.mark? = (es.filterMap Event.request?).map .request := by
  induction es with
  | nil => rfl
  | cons e es ih =>
      cases e with
      | progressed current total message => cases h
      | sent q => exact congrArg (Mark.request q :: ·) (ih h)
      | _ => exact ih h

/-- **The marks of a run without reports are its requests.** -/
theorem marks (h : Speech w d w') : Shows Event.mark? w (d.map fun p => .request p.1) w' := by
  obtain ⟨es, he, hrequests⟩ := h.talk.events
  obtain ⟨es', he', hreports⟩ := h.unreported
  cases List.append_cancel_left (he.symm.trans he')
  refine ⟨es, he, ?_⟩
  rw [filterMap_mark hreports, hrequests, List.map_map]
  rfl

end Speech

namespace Exchange

variable {α : Type} {w w' : World}

/-- Nothing is reported. -/
def unreported : Frame where
  rel w w' := Shows Event.report? w [] w'
  refl := .refl
  trans h₁ h₂ := h₁.trans h₂

theorem unreported_online : unreported.Online where
  note w _ he := .note_of_eq w he.report
  session w _ _ := .note_of_eq { w with hasSession := true } rfl
  send q w := by
    have hsent : Shows Event.report? w [] (w.note (.sent q)) := .note_of_eq w rfl
    show Shows Event.report? w [] (send q w).2
    rw [send_run]
    split
    · exact hsent
    · exact hsent.trans (.of_eq rfl)
    · exact (hsent.trans (.of_eq rfl)).trans (.note_of_eq _ rfl)

theorem unreported_recording : unreported.Recording where
  of_eq h _ := .of_eq h

/-- Nothing is said and nothing is reported. -/
def idle : Frame where
  rel w w' := Speech w [] w'
  refl := .refl
  trans h₁ h₂ := h₁.trans h₂

theorem idle_quiet : idle.Quiet where
  note w _ he := .note w he.request he.report
  session w timeout h := ⟨silent_quiet.session w timeout h, unreported_online.session w timeout h⟩

/-- What follows a run in silence does not undo its failure. -/
theorem bind_idle {β : Type} {x : Exchange α} {f : α → Exchange β} {r : Except Failure β}
    (h : (x >>= f) w = (r, w')) (hf : ∀ a, Keeps idle (f a)) :
    ∃ v w₁, x w = (v, w₁) ∧ Speech w₁ [] w' ∧ ∀ e, v = .error e → r = .error e := by
  rcases bind_cases h with ⟨a, w₁, hx, h⟩ | ⟨e, hx, rfl⟩
  · exact ⟨.ok a, w₁, hx, (hf a).rel h, nofun⟩
  · exact ⟨.error e, w', hx, .refl w', fun e' he => by cases he; rfl⟩

theorem report_run (current total : Int) (message : String) (w : World) :
    report true current total message w = (.ok (), w.note (.progressed current total message)) := rfl

/-- A report is a mark, and nothing is said. -/
theorem report_marks (w : World) (current total : Int) (message : String) :
    Talk w [] (w.note (.progressed current total message)) ∧
      Shows Event.mark? w [.report current total] (w.note (.progressed current total message)) :=
  ⟨.note w rfl, .note_of_eq w rfl⟩

/-- A request whose response is used: what is reported is reported in its use. -/
theorem withResponse_speech {q : Request} {explain : String → Failure} {use : Response → Exchange α}
    {r : Except Failure α} (h : withResponse q explain use w = (r, w')) :
    (∃ f, Speech w [(q, .fault f)] w' ∧ r = .error (f.failure explain)) ∨
      ∃ response w₁ w₂, Speech w [(q, .response response)] w₁ ∧ use response w₁ = (r, w₂) ∧
        w' = w₂.note .released := by
  rcases withResponse_online unreported_online h with ⟨f, ht, hu, hr⟩ | ⟨response, w₁, w₂, ht, hu, hx⟩
  · exact .inl ⟨f, ⟨ht, hu⟩, hr⟩
  · exact .inr ⟨response, w₁, w₂, ⟨ht, hu⟩, hx⟩

/-- The same where the response is only calculated with. -/
theorem withResponse_calculated {q : Request} {explain : String → Failure}
    {use : Response → Exchange α} {g : Response → Except Failure α} {r : Except Failure α}
    (hg : ∀ response, Calculates (use response) (g response))
    (h : withResponse q explain use w = (r, w')) :
    ∃ a, Speech w [(q, a)] w' ∧ r = result a explain g := by
  obtain ⟨a, ht, _, hr⟩ := withResponse_result hg h
  have hu : unreported.rel w w' := (unreported_online.serving.keeps_withResponse q explain
    fun response => keeps_of_calculates (hg response)).rel h
  exact ⟨a, ⟨ht, hu⟩, hr⟩

/-- A warning says nothing to registries and is no report. -/
theorem warnOnFailure_speech {source : LogSource} {message : String → String} {x : Exchange α}
    {r : Except Failure α} (h : warnOnFailure source message x w = (r, w')) :
    ∃ w₁, x w = (r, w₁) ∧ Speech w₁ [] w' ∧ Untouched w₁ w' := by
  obtain ⟨w₁, hx, _, rfl | ⟨text, rfl⟩⟩ := warnOnFailure_cases h
  · exact ⟨w', hx, .refl w', .refl w'⟩
  · exact ⟨w₁, hx, .note w₁ rfl rfl, .note w₁ _⟩

theorem warnOnFailure_talk {source : LogSource} {message : String → String} {x : Exchange α}
    {r : Except Failure α} (h : warnOnFailure source message x w = (r, w')) :
    ∃ w₁, x w = (r, w₁) ∧ Talk w₁ [] w' ∧ Untouched w₁ w' :=
  let ⟨w₁, hx, hs, hu⟩ := warnOnFailure_speech h
  ⟨w₁, hx, hs.talk, hu⟩

/-- A client that has to have a session gets it without a word or a report. -/
theorem ensureSession_bind_speech {timeout : Nat} {f : Unit → Exchange α} {r : Except Failure α}
    (h : (ensureSession timeout >>= f) w = (r, w')) :
    ∃ w₁, Speech w [] w₁ ∧ f () w₁ = (r, w') := by
  rcases bind_cases h with ⟨_, w₁, hs, h⟩ | ⟨e, hs, _⟩
  · exact ⟨w₁, (idle_quiet.calm.keeps_ensureSession timeout).rel hs, h⟩
  · exact absurd (ensureSession_ok hs) nofun

theorem note_bind_speech {f : Unit → Exchange α} {e : Event} (he : e.request? = none)
    (hreport : e.report? = none) {r : Except Failure α} (h : (note e >>= f) w = (r, w')) :
    ∃ w₁, Speech w [] w₁ ∧ Untouched w w₁ ∧ f () w₁ = (r, w') :=
  ⟨w.note e, .note w he hreport, .note w e, h⟩

end Exchange

end ImageTransfer
