import ImageTransfer.Exchange.World

/-!
# How runs are taken apart

A run of a program is `x w = (r, w')`: in the world `w` it gives `r` and leaves `w'` behind. The
lemmas of the first half take such an equation apart along the program, so that a statement about a
whole run is put together from statements about its parts.

A `Frame` is a relation between the worlds before and after that every step may be checked against
alone. The second half says that programs keep to a frame if their parts do.
-/

namespace ImageTransfer

theorem bind_eq_ok {ε α β : Type} {x : Except ε α} {f : α → Except ε β} {b : β} :
    (x >>= f) = .ok b ↔ ∃ a, x = .ok a ∧ f a = .ok b := by
  cases x with
  | ok a => exact ⟨fun h => ⟨a, rfl, h⟩, fun ⟨_, ha, h⟩ => by cases ha; exact h⟩
  | error e => exact ⟨nofun, fun ⟨_, ha, _⟩ => absurd ha nofun⟩

theorem bind_eq_error {ε α β : Type} {x : Except ε α} {f : α → Except ε β} {e : ε} :
    (x >>= f) = .error e ↔ x = .error e ∨ ∃ a, x = .ok a ∧ f a = .error e := by
  cases x with
  | ok a =>
      refine ⟨fun h => .inr ⟨a, rfl, h⟩, ?_⟩
      rintro (h | ⟨_, ha, h⟩)
      · cases h
      · cases ha
        exact h
  | error e' =>
      refine ⟨fun h => .inl ?_, ?_⟩
      · cases h
        rfl
      · rintro (h | ⟨_, ha, _⟩)
        · cases h
          rfl
        · cases ha

theorem mapError_eq_ok {ε ε' α : Type} {x : Except ε α} {f : ε → ε'} {a : α} :
    x.mapError f = .ok a ↔ x = .ok a := by
  cases x with
  | ok b => exact ⟨fun h => by cases h; rfl, fun h => by cases h; rfl⟩
  | error e => exact ⟨nofun, nofun⟩

theorem mapError_eq_error {ε ε' α : Type} {x : Except ε α} {f : ε → ε'} {e' : ε'} :
    x.mapError f = .error e' ↔ ∃ e, x = .error e ∧ f e = e' := by
  cases x with
  | ok a => exact ⟨nofun, fun ⟨_, h, _⟩ => absurd h nofun⟩
  | error e =>
      refine ⟨fun h => ⟨e, rfl, Except.error.inj h⟩, ?_⟩
      rintro ⟨_, h, rfl⟩
      cases h
      rfl

namespace Event

/-- The text of a line of the log about the integrity of content. -/
def alarm? : Event → Option String
  | .logged .integrity _ text => some text
  | _ => none

/-- What a report of progress says: how much is done, and of how much. -/
def report? : Event → Option (Int × Int)
  | .progressed current total _ => some (current, total)
  | _ => none

/-- How many more responses are open after an event than before. -/
def held : Event → Int
  | .opened _ => 1
  | .released => -1
  | _ => 0

/-- Whether an event opens a session of an owner (`true`) or closes it (`false`), if it does. -/
def turn? (owner : SessionOwner) : Event → Option Bool
  | .sessionOpened other _ => if other = owner then some true else none
  | .sessionClosed other => if other = owner then some false else none
  | _ => none

/-- Neither a request nor a line about integrity nor a report, and nothing about a session. -/
structure IsRoutine (e : Event) : Prop where
  request : e.request? = none
  alarm : e.alarm? = none
  report : e.report? = none
  turn : ∀ owner, e.turn? owner = none

theorem isRoutine_logged {source : LogSource} (hs : source ≠ .integrity) (level : LogLevel)
    (text : String) : (Event.logged source level text).IsRoutine := by
  refine ⟨rfl, ?_, rfl, fun _ => rfl⟩
  cases source with
  | integrity => exact absurd rfl hs
  | _ => rfl

theorem isRoutine_released : Event.released.IsRoutine := ⟨rfl, rfl, rfl, fun _ => rfl⟩

end Event

/-- The world after the client's session has been opened. -/
def World.sessionOpened (w : World) (timeout : Nat) : World :=
  { w with hasSession := true }.note (.sessionOpened .client timeout)

/-! ## What the events between two worlds show -/

/-- What the events show that have happened since an earlier world. -/
def World.seenSince {β : Type} (view : Event → Option β) (w w' : World) : List β :=
  (w'.events.toList.drop w.events.size).filterMap view

/-- Between two worlds events have happened that show this. -/
def Shows {β : Type} (view : Event → Option β) (w : World) (xs : List β) (w' : World) : Prop :=
  ∃ es, w'.events.toList = w.events.toList ++ es ∧ es.filterMap view = xs

namespace Shows

variable {β : Type} {view : Event → Option β} {u v w w' : World} {xs ys : List β}

theorem of_eq (h : w'.events = w.events) : Shows view w [] w' :=
  ⟨[], by rw [h, List.append_nil], rfl⟩

theorem refl (w : World) : Shows view w [] w := of_eq rfl

theorem trans (h₁ : Shows view u xs v) (h₂ : Shows view v ys w) : Shows view u (xs ++ ys) w := by
  obtain ⟨es, he, hx⟩ := h₁
  obtain ⟨es', he', hx'⟩ := h₂
  refine ⟨es ++ es', ?_, ?_⟩
  · rw [he', he, List.append_assoc]
  · rw [List.filterMap_append, hx, hx']

theorem before (h₁ : Shows view u xs v) (h₂ : Shows view v [] w) : Shows view u xs w := by
  have := h₁.trans h₂
  rwa [List.append_nil] at this

theorem note (w : World) (e : Event) : Shows view w (view e).toList (w.note e) := by
  refine ⟨[e], by simp [World.note], ?_⟩
  cases h : view e <;> simp [h]

theorem note_of_eq (w : World) {e : Event} {seen : Option β} (h : view e = seen) :
    Shows view w seen.toList (w.note e) := h ▸ note w e

/-- **What is shown between two worlds can be read off them.** -/
theorem seenSince_eq (h : Shows view w xs w') : w.seenSince view w' = xs := by
  obtain ⟨es, he, hx⟩ := h
  rw [World.seenSince, he, ← Array.length_toList, List.drop_left, hx]

end Shows

end ImageTransfer

namespace ImageTransfer.Exchange

variable {α β σ : Type}

/-! ## Inversion -/

theorem bind_cases {x : Exchange α} {f : α → Exchange β} {w w' : World} {r : Except Failure β}
    (h : (x >>= f) w = (r, w')) :
    (∃ a w₁, x w = (.ok a, w₁) ∧ f a w₁ = (r, w')) ∨
      (∃ e, x w = (.error e, w') ∧ r = .error e) := by
  rcases hx : x w with ⟨_ | a, w₁⟩
  · rename_i e
    have hr : (x >>= f) w = (.error e, w₁) := by
      show (ExceptT.bindCont f (x w).1) (x w).2 = _
      rw [hx]; rfl
    rw [hr] at h
    obtain ⟨rfl, rfl⟩ := Prod.mk.inj h
    exact .inr ⟨e, rfl, rfl⟩
  · have hr : (x >>= f) w = f a w₁ := by
      show (ExceptT.bindCont f (x w).1) (x w).2 = _
      rw [hx]; rfl
    exact .inl ⟨a, w₁, rfl, hr ▸ h⟩

/-- A run that gives a value has gone through both of its parts. -/
theorem bind_ok {x : Exchange α} {f : α → Exchange β} {w w' : World} {b : β}
    (h : (x >>= f) w = (.ok b, w')) : ∃ a w₁, x w = (.ok a, w₁) ∧ f a w₁ = (.ok b, w') := by
  rcases bind_cases h with hab | ⟨e, _, he⟩
  · exact hab
  · exact absurd he (by simp)

theorem bind_run {x : Exchange α} {f : α → Exchange β} {w w₁ : World} {a : α}
    (h : x w = (.ok a, w₁)) : (x >>= f) w = f a w₁ := by
  show (ExceptT.bindCont f (x w).1) (x w).2 = _
  rw [h]; rfl

theorem bind_error {x : Exchange α} {f : α → Exchange β} {w w₁ : World} {e : Failure}
    (h : x w = (.error e, w₁)) : (x >>= f) w = (.error e, w₁) := by
  show (ExceptT.bindCont f (x w).1) (x w).2 = _
  rw [h]; rfl

theorem pure_inv {a : α} {w w' : World} {r : Except Failure α}
    (h : (pure a : Exchange α) w = (r, w')) : r = .ok a ∧ w' = w := by
  obtain ⟨rfl, rfl⟩ := Prod.mk.inj h
  exact ⟨rfl, rfl⟩

theorem throw_inv {e : Failure} {w w' : World} {r : Except Failure α}
    (h : (throw e : Exchange α) w = (r, w')) : r = .error e ∧ w' = w := by
  obtain ⟨rfl, rfl⟩ := Prod.mk.inj h
  exact ⟨rfl, rfl⟩

theorem note_inv {e : Event} {w w' : World} {r : Except Failure Unit}
    (h : note e w = (r, w')) : r = .ok () ∧ w' = w.note e := by
  obtain ⟨rfl, rfl⟩ := Prod.mk.inj h
  exact ⟨rfl, rfl⟩

theorem ofExcept_cases {ε : Type} {x : Except ε α} {failure : ε → Failure} {w w' : World}
    {r : Except Failure α} (h : ofExcept x failure w = (r, w')) :
    w' = w ∧ ((∃ a, x = .ok a ∧ r = .ok a) ∨ ∃ e, x = .error e ∧ r = .error (failure e)) := by
  cases x with
  | ok a =>
      obtain ⟨rfl, rfl⟩ := pure_inv h
      exact ⟨rfl, .inl ⟨a, rfl, rfl⟩⟩
  | error e =>
      obtain ⟨rfl, rfl⟩ := throw_inv h
      exact ⟨rfl, .inr ⟨e, rfl, rfl⟩⟩

theorem ofExcept_ok {ε : Type} {x : Except ε α} {failure : ε → Failure} {w w' : World} {a : α}
    (h : ofExcept x failure w = (.ok a, w')) : x = .ok a ∧ w' = w := by
  rcases ofExcept_cases h with ⟨rfl, ⟨b, hx, hb⟩ | ⟨e, _, he⟩⟩
  · cases hb; exact ⟨hx, rfl⟩
  · exact absurd he (by simp)

theorem ofExcept_ok_bind {ε : Type} (a : α) (failure : ε → Failure) (f : α → Exchange β) :
    (ofExcept (.ok a) failure >>= f) = f a := rfl

/-- A run that gives a value has gone on with the value that it needed. -/
theorem ofExcept_bind_ok {ε : Type} {x : Except ε α} {failure : ε → Failure} {f : α → Exchange β}
    {w w' : World} {b : β} (h : (ofExcept x failure >>= f) w = (.ok b, w')) :
    ∃ a, x = .ok a ∧ f a w = (.ok b, w') := by
  obtain ⟨a, w₁, hx, h⟩ := bind_ok h
  obtain ⟨hx, hw⟩ := ofExcept_ok hx
  exact ⟨a, hx, hw ▸ h⟩

theorem withCleanup_inv {x : Exchange α} {cleanup : World → World} {w w' : World}
    {r : Except Failure α} (h : withCleanup x cleanup w = (r, w')) :
    ∃ w₁, x w = (r, w₁) ∧ w' = cleanup w₁ := by
  obtain ⟨rfl, rfl⟩ := Prod.mk.inj h
  exact ⟨(x w).2, rfl, rfl⟩

theorem releasing_inv {x : Exchange α} {w w' : World} {r : Except Failure α}
    (h : releasing x w = (r, w')) : ∃ w₁, x w = (r, w₁) ∧ w' = w₁.note .released :=
  withCleanup_inv h

theorem tryCatch_run (x : Exchange α) (f : Failure → Exchange α) (w : World) :
    (tryCatch x f : Exchange α) w =
      match x w with
      | (.ok a, w₁) => (.ok a, w₁)
      | (.error e, w₁) => f e w₁ := by
  simp only [tryCatch, tryCatchThe, MonadExceptOf.tryCatch, ExceptT.tryCatch, ExceptT.mk, bind,
    StateT.bind]
  rcases x w with ⟨e | a, w₁⟩ <;> rfl

theorem tryCatch_cases {x : Exchange α} {f : Failure → Exchange α} {w w' : World}
    {r : Except Failure α} (h : (tryCatch x f : Exchange α) w = (r, w')) :
    (∃ a, x w = (.ok a, w') ∧ r = .ok a) ∨ ∃ e w₁, x w = (.error e, w₁) ∧ f e w₁ = (r, w') := by
  rw [tryCatch_run] at h
  rcases hx : x w with ⟨e | a, w₁⟩
  · rw [hx] at h
    exact .inr ⟨e, w₁, rfl, h⟩
  · rw [hx] at h
    obtain ⟨rfl, rfl⟩ := Prod.mk.inj h
    exact .inl ⟨a, rfl, rfl⟩

theorem mapFailure_cases {x : Exchange α} {f : Failure → Failure} {w w' : World}
    {r : Except Failure α} (h : mapFailure x f w = (r, w')) :
    (∃ a, x w = (.ok a, w') ∧ r = .ok a) ∨ ∃ e, x w = (.error e, w') ∧ r = .error (f e) := by
  rcases tryCatch_cases h with hok | ⟨e, w₁, hx, ht⟩
  · exact .inl hok
  · obtain ⟨rfl, rfl⟩ := throw_inv ht
    exact .inr ⟨e, hx, rfl⟩

/-- A warning is all that a failure adds. -/
theorem warnOnFailure_cases {source : LogSource} {message : String → String} {x : Exchange α}
    {w w' : World} {r : Except Failure α} (h : warnOnFailure source message x w = (r, w')) :
    ∃ w₁, x w = (r, w₁) ∧ ((∃ a, r = .ok a) → w' = w₁) ∧
      (w' = w₁ ∨ ∃ text, w' = w₁.note (.logged source .warning text)) := by
  rcases tryCatch_cases h with ⟨a, hx, rfl⟩ | ⟨e, w₁, hx, hf⟩
  · exact ⟨w', hx, fun _ => rfl, .inl rfl⟩
  · split at hf
    · rcases bind_cases hf with ⟨_, w₂, hn, ht⟩ | ⟨e', hn, _⟩
      · obtain ⟨rfl, rfl⟩ := throw_inv ht
        obtain ⟨_, rfl⟩ := note_inv hn
        exact ⟨w₁, hx, fun ⟨_, hok⟩ => absurd hok (by simp), .inr ⟨_, rfl⟩⟩
      · exact absurd (note_inv hn).1 (by simp)
    · obtain ⟨rfl, rfl⟩ := throw_inv hf
      exact ⟨_, hx, fun ⟨_, hok⟩ => absurd hok (by simp), .inl rfl⟩

theorem report_cases {listens : Bool} {current total : Int} {message : String} {w w' : World}
    {r : Except Failure Unit} (h : report listens current total message w = (r, w')) :
    r = .ok () ∧ (w' = w ∨ w' = w.note (.progressed current total message)) := by
  unfold report at h
  split at h
  · obtain ⟨rfl, rfl⟩ := note_inv h
    exact ⟨rfl, .inr rfl⟩
  · obtain ⟨rfl, rfl⟩ := pure_inv h
    exact ⟨rfl, .inl rfl⟩

theorem ensureSession_run (timeout : Nat) (w : World) :
    ensureSession timeout w =
      if w.hasSession = true then (.ok (), w) else (.ok (), w.sessionOpened timeout) := by
  show (if w.hasSession = true then (pure () : Exchange Unit) else _) w = _
  split <;> rfl

theorem ensureSession_ok {timeout : Nat} {w w' : World} {r : Except Failure Unit}
    (h : ensureSession timeout w = (r, w')) : r = .ok () := by
  rw [ensureSession_run] at h
  split at h <;> exact (Prod.mk.inj h).1.symm

/-- What each step of a fold keeps up about the items so far holds of all in the end. -/
theorem foldlM_ok {f : σ → α → Exchange σ} {P : List α → σ → World → Prop}
    (hf : ∀ {seen a s s' w w'}, P seen s w → f s a w = (.ok s', w') → P (seen ++ [a]) s' w')
    {as : List α} {s s' : σ} {w w' : World} (hP : P [] s w)
    (h : as.foldlM f s w = (.ok s', w')) : P as s' w' := by
  have hgoOn : ∀ (as seen : List α) (s : σ) (w : World), P seen s w →
      as.foldlM f s w = (.ok s', w') → P (seen ++ as) s' w' := by
    intro as
    induction as with
    | nil =>
        intro seen s w hP h
        obtain ⟨hs, rfl⟩ := pure_inv h
        cases hs
        rwa [List.append_nil]
    | cons a as ih =>
        intro seen s w hP h
        rw [List.foldlM_cons] at h
        obtain ⟨t, w₁, h₁, h⟩ := bind_ok h
        have := ih (seen ++ [a]) t w₁ (hf hP h₁) h
        rwa [List.append_assoc, List.singleton_append] at this
  exact hgoOn as [] s w hP h

/-! ## Calculations -/

/-- The program only calculates: it leaves every world as it is, and gives this. -/
def Calculates (x : Exchange α) (v : Except Failure α) : Prop := ∀ w, x w = (v, w)

theorem calculates_pure (a : α) : Calculates (pure a) (.ok a) := fun _ => rfl

theorem calculates_throw (e : Failure) : Calculates (throw e : Exchange α) (.error e) := fun _ => rfl

theorem calculates_ofExcept {ε : Type} (x : Except ε α) (failure : ε → Failure) :
    Calculates (ofExcept x failure) (x.mapError failure) := by
  cases x with
  | ok a => exact calculates_pure a
  | error e => exact calculates_throw (failure e)

theorem calculates_bind {x : Exchange α} {v : Except Failure α} {f : α → Exchange β}
    {g : α → Except Failure β} (hx : Calculates x v) (hf : ∀ a, Calculates (f a) (g a)) :
    Calculates (x >>= f) (v >>= g) := by
  intro w
  cases v with
  | ok a => exact (bind_run (hx w)).trans (hf a w)
  | error e => exact bind_error (hx w)

/-- What follows a run and only calculates adds its calculation to the result. -/
theorem bind_calculates {x : Exchange α} {f : α → Exchange β} {g : α → Except Failure β}
    (hf : ∀ a, Calculates (f a) (g a)) {w w' : World} {r : Except Failure β}
    (h : (x >>= f) w = (r, w')) : ∃ v, x w = (v, w') ∧ r = v >>= g := by
  rcases bind_cases h with ⟨a, w₁, hx, h⟩ | ⟨e, hx, rfl⟩
  · rw [hf a w₁] at h
    obtain ⟨rfl, rfl⟩ := Prod.mk.inj h
    exact ⟨.ok a, hx, rfl⟩
  · exact ⟨.error e, hx, rfl⟩

/-- The whole body of a response, or the failure that it breaks off with. -/
def wholeBody (response : Response) (explain : String → Failure) : Except Failure (List UInt8) :=
  match response.broken with
  | none => .ok response.body
  | some f => .error (f.failure explain)

theorem wholeBody_eq_ok {response : Response} {explain : String → Failure} {bytes : List UInt8} :
    wholeBody response explain = .ok bytes ↔ response.broken = none ∧ response.body = bytes := by
  unfold wholeBody
  cases response.broken with
  | none => exact ⟨fun h => ⟨rfl, Except.ok.inj h⟩, fun h => congrArg Except.ok h.2⟩
  | some f => exact ⟨nofun, nofun⟩

theorem calculates_readBody (response : Response) (explain : String → Failure) :
    Calculates (readBody response explain) (wholeBody response explain) := by
  unfold readBody wholeBody
  cases response.broken with
  | none => exact calculates_pure _
  | some f => exact calculates_throw _

/-! ## Frames -/

/-- What is checked of a run step by step: a relation between the worlds before and after it. -/
structure Frame where
  rel : World → World → Prop
  refl : ∀ w, rel w w
  trans : ∀ {u v w}, rel u v → rel v w → rel u w

/-- Every run of the program keeps to the frame, whatever comes of it. -/
def Keeps (F : Frame) (x : Exchange α) : Prop := ∀ w, F.rel w (x w).2

variable {F : Frame}

theorem Keeps.rel {x : Exchange α} (h : Keeps F x) {w w' : World} {r : Except Failure α}
    (hx : x w = (r, w')) : F.rel w w' := by
  have := h w
  rwa [hx] at this

theorem keeps_of_rel {x : Exchange α} (h : ∀ w r w', x w = (r, w') → F.rel w w') : Keeps F x :=
  fun w => h w (x w).1 (x w).2 rfl

theorem keeps_pure (a : α) : Keeps F (pure a : Exchange α) := fun w => F.refl w

theorem keeps_throw (e : Failure) : Keeps F (throw e : Exchange α) := fun w => F.refl w

theorem keeps_of_calculates {x : Exchange α} {v : Except Failure α} (hx : Calculates x v) :
    Keeps F x := by
  intro w
  rw [hx w]
  exact F.refl w

/-- What follows a part of a run only has to keep to the frame for what the part can give. -/
theorem keeps_bind_of_ok {x : Exchange α} {f : α → Exchange β} (hx : Keeps F x)
    (hf : ∀ a w w', x w = (.ok a, w') → Keeps F (f a)) : Keeps F (x >>= f) := by
  refine keeps_of_rel fun w r w' h => ?_
  rcases bind_cases h with ⟨a, w₁, h₁, h₂⟩ | ⟨e, h₁, _⟩
  · exact F.trans (hx.rel h₁) ((hf a w w₁ h₁).rel h₂)
  · exact hx.rel h₁

theorem keeps_bind {x : Exchange α} {f : α → Exchange β} (hx : Keeps F x)
    (hf : ∀ a, Keeps F (f a)) : Keeps F (x >>= f) :=
  keeps_bind_of_ok hx fun a _ _ _ => hf a

theorem keeps_ite {c : Prop} [Decidable c] {x y : Exchange α} (hx : Keeps F x) (hy : Keeps F y) :
    Keeps F (if c then x else y) := by
  split
  · exact hx
  · exact hy

theorem keeps_ofExcept {ε : Type} (x : Except ε α) (failure : ε → Failure) :
    Keeps F (ofExcept x failure) := by
  cases x with
  | ok a => exact keeps_pure a
  | error e => exact keeps_throw (failure e)

theorem keeps_withCleanup {x : Exchange α} {cleanup : World → World} (hx : Keeps F x)
    (hc : ∀ w, F.rel w (cleanup w)) : Keeps F (withCleanup x cleanup) :=
  fun w => F.trans (hx w) (hc _)

theorem keeps_tryCatch {x : Exchange α} {f : Failure → Exchange α} (hx : Keeps F x)
    (hf : ∀ e, Keeps F (f e)) : Keeps F (tryCatch x f : Exchange α) := by
  refine keeps_of_rel fun w r w' h => ?_
  rcases tryCatch_cases h with ⟨a, h₁, _⟩ | ⟨e, w₁, h₁, h₂⟩
  · exact hx.rel h₁
  · exact F.trans (hx.rel h₁) ((hf e).rel h₂)

theorem keeps_foldlM {f : σ → α → Exchange σ} (hf : ∀ s a, Keeps F (f s a)) (as : List α) (s : σ) :
    Keeps F (as.foldlM f s) := by
  induction as generalizing s with
  | nil => exact keeps_pure s
  | cons a as ih =>
      rw [List.foldlM_cons]
      exact keeps_bind (hf s a) fun s' => ih s'

/-- Both of two frames. -/
def Frame.and (F G : Frame) : Frame where
  rel w w' := F.rel w w' ∧ G.rel w w'
  refl w := ⟨F.refl w, G.refl w⟩
  trans h₁ h₂ := ⟨F.trans h₁.1 h₂.1, G.trans h₁.2 h₂.2⟩

/-- A frame that does not mind the reports that are made if somebody listens. -/
class Frame.Hears (F : Frame) (listens : Bool) : Prop where
  report : listens = true → ∀ (w : World) (current total : Int) (message : String),
    F.rel w (w.note (.progressed current total message))

/-- If nobody listens, there are no reports. -/
instance Frame.hears_nobody (F : Frame) : F.Hears false := ⟨nofun⟩

instance Frame.and_hears {F G : Frame} {listens : Bool} [hF : F.Hears listens]
    [hG : G.Hears listens] : (F.and G).Hears listens :=
  ⟨fun h w current total message =>
    ⟨hF.report h w current total message, hG.report h w current total message⟩⟩

theorem keeps_report (listens : Bool) [hF : F.Hears listens] (current total : Int)
    (message : String) : Keeps F (report listens current total message) := by
  unfold report
  split
  · rename_i h
    exact fun w => hF.report h w current total message
  · exact keeps_pure _

/-- A frame that does not mind what happens beside the requests and their responses, as far as it is
routine. -/
structure Frame.Calm (F : Frame) : Prop where
  note : ∀ (w : World) (e : Event), e.IsRoutine → e.held = 0 → F.rel w (w.note e)
  session : ∀ (w : World) (timeout : Nat), w.hasSession = false → F.rel w (w.sessionOpened timeout)

namespace Frame.Calm

theorem keeps_note (hF : F.Calm) {e : Event} (he : e.IsRoutine) (hheld : e.held = 0) :
    Keeps F (Exchange.note e) := fun w => hF.note w e he hheld

theorem keeps_log (hF : F.Calm) {source : LogSource} (hs : source ≠ .integrity) (level : LogLevel)
    (message : String) : Keeps F (log source level message) :=
  hF.keeps_note (Event.isRoutine_logged hs _ _) rfl

/-- The warning that comes before a failure. -/
theorem keeps_warning (hF : F.Calm) {source : LogSource} (hs : source ≠ .integrity)
    (message : String → String) (e : Failure) : Keeps F (do
      if e.kind.isRegistry then log source .warning (message (e.message.getD ""))
      throw e : Exchange α) := by
  split
  · exact keeps_bind (hF.keeps_log hs _ _) fun _ => keeps_throw e
  · exact keeps_throw e

theorem keeps_warnOnFailure (hF : F.Calm) {source : LogSource} (hs : source ≠ .integrity)
    (message : String → String) {x : Exchange α} (hx : Keeps F x) :
    Keeps F (warnOnFailure source message x) :=
  keeps_tryCatch hx (hF.keeps_warning hs message)

theorem keeps_ensureSession (hF : F.Calm) (timeout : Nat) : Keeps F (ensureSession timeout) := by
  refine keeps_of_rel fun w r w' h => ?_
  rw [ensureSession_run] at h
  split at h
  · obtain ⟨_, rfl⟩ := Prod.mk.inj h
    exact F.refl w
  · rename_i hclosed
    obtain ⟨_, rfl⟩ := Prod.mk.inj h
    exact hF.session w timeout (Bool.eq_false_iff.2 hclosed)

end Frame.Calm

/-- A frame that minds nothing but what is recorded, and whether the client has a session. -/
structure Frame.Recording (F : Frame) : Prop where
  of_eq : ∀ {w w' : World}, w'.events = w.events → w'.hasSession = w.hasSession → F.rel w w'

/-- A frame that does not mind what happens beside the requests, as far as it is routine. -/
structure Frame.Quiet (F : Frame) : Prop where
  note : ∀ (w : World) (e : Event), e.IsRoutine → F.rel w (w.note e)
  session : ∀ (w : World) (timeout : Nat), w.hasSession = false → F.rel w (w.sessionOpened timeout)

namespace Frame.Quiet

theorem and {G : Frame} (hF : F.Quiet) (hG : G.Quiet) : (F.and G).Quiet where
  note w e he := ⟨hF.note w e he, hG.note w e he⟩
  session w timeout h := ⟨hF.session w timeout h, hG.session w timeout h⟩

theorem calm (hF : F.Quiet) : F.Calm where
  note w e he _ := hF.note w e he
  session := hF.session

theorem keeps_releasing (hF : F.Quiet) {x : Exchange α} (hx : Keeps F x) : Keeps F (releasing x) :=
  keeps_withCleanup hx fun w => hF.note w _ Event.isRoutine_released

end Frame.Quiet

/-- A frame for the requests of a client: if all that is done with a response keeps to `G`, then the
request, the use of its response and the release keep to `F`. -/
structure Frame.Serving (F G : Frame) : Prop extends F.Calm where
  answered : ∀ {α : Type} (q : Request) {x : Except Fault Response → Exchange α}
    {use : Response → Exchange α}, (∀ f, Keeps F (x (.error f))) →
      (∀ response, x (.ok response) = releasing (use response)) →
      (∀ response, Keeps G (use response)) → Keeps F (send q >>= x)

namespace Frame.Serving

variable {G : Frame}

theorem keeps_withResponse (hF : F.Serving G) (q : Request) (explain : String → Failure)
    {use : Response → Exchange α} (hu : ∀ response, Keeps G (use response)) :
    Keeps F (withResponse q explain use) :=
  hF.answered q (fun _ => keeps_throw _) (fun _ => rfl) hu

theorem keeps_withResponseOr (hF : F.Serving G) (q : Request) {otherwise : Exchange α}
    {use : Response → Exchange α} (ho : Keeps F otherwise)
    (hu : ∀ response, Keeps G (use response)) : Keeps F (withResponseOr q otherwise use) :=
  hF.answered q (fun _ => keeps_ite ho (keeps_throw _)) (fun _ => rfl) hu

end Frame.Serving

/-- A frame that does not mind what passes between a client and registries. -/
structure Frame.Online (F : Frame) : Prop extends F.Quiet where
  send : ∀ r : Request, Keeps F (send r)

theorem Frame.Online.and {G : Frame} (hF : F.Online) (hG : G.Online) : (F.and G).Online where
  toQuiet := hF.toQuiet.and hG.toQuiet
  send q w := ⟨hF.send q w, hG.send q w⟩

/-- Where neither a response nor its release matters, the same goes for what is done with it. -/
theorem Frame.Online.serving (hF : F.Online) : F.Serving F where
  toCalm := hF.calm
  answered q _ _ hfault hok hu := by
    refine keeps_bind (hF.send q) fun answer => ?_
    cases answer with
    | error f => exact hfault f
    | ok response =>
        rw [hok response]
        exact hF.keeps_releasing (hu response)

end ImageTransfer.Exchange
