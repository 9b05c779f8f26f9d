import ImageTransfer.Proofs.Exchange.Disk
import ImageTransfer.Proofs.Exchange.Sink
import ImageTransfer.Transfer.Integrity

/-!
# Alarms

A line of the log about integrity is an alarm. All that programs do beside checks of digests is
`unalarmed`, so the alarms of a run come from its checks.

A program that takes a policy heeds it if the policy decides about mismatches and about nothing else.
`Heeds` says this of two runs in one world. As long as no mismatch is found they are the same run.
The first one is an alarm of the run that warns and the end of the strict run, which until then has
said and heard the same. Programs heed a policy if their parts do.
-/

namespace ImageTransfer

/-- The alarms since an earlier world. -/
def World.alarmsSince (w w' : World) : List String :=
  (w'.events.toList.drop w.events.size).filterMap Event.alarm?

/-- Between two worlds these alarms were given. -/
def Alarms (w : World) (texts : List String) (w' : World) : Prop :=
  ∃ es, w'.events.toList = w.events.toList ++ es ∧ es.filterMap Event.alarm? = texts

namespace Alarms

theorem of_eq {w w' : World} (h : w'.events = w.events) : Alarms w [] w' := Shows.of_eq h

theorem refl (w : World) : Alarms w [] w := of_eq rfl

theorem trans {u v w : World} {texts texts' : List String} (h₁ : Alarms u texts v)
    (h₂ : Alarms v texts' w) : Alarms u (texts ++ texts') w := Shows.trans h₁ h₂

theorem before {u v w : World} {texts : List String} (h₁ : Alarms u texts v) (h₂ : Alarms v [] w) :
    Alarms u texts w := Shows.before h₁ h₂

theorem note (w : World) (e : Event) : Alarms w e.alarm?.toList (w.note e) := Shows.note w e

theorem note_routine (w : World) {e : Event} (he : e.IsRoutine) : Alarms w [] (w.note e) :=
  Shows.note_of_eq w he.alarm

/-- **The alarms between two worlds can be read off them.** -/
theorem alarmsSince_eq {w w' : World} {texts : List String} (h : Alarms w texts w') :
    w.alarmsSince w' = texts := Shows.seenSince_eq h

end Alarms

namespace Exchange

variable {α β : Type} {w w' : World}

/-! ## What gives no alarm -/

/-- No alarm is given. -/
def unalarmed : Frame where
  rel w w' := Alarms w [] w'
  refl := .refl
  trans h₁ h₂ := h₁.trans h₂

instance unalarmed_hears {listens : Bool} : unalarmed.Hears listens :=
  ⟨fun _ w _ _ _ => .note w _⟩

theorem unalarmed_online : unalarmed.Online where
  note w _ he := .note_routine w he
  session w _ _ := .note { w with hasSession := true } _
  send q w := by
    have hsent : Alarms w [] (w.note (.sent q)) := .note w _
    show Alarms w [] (send q w).2
    rw [send_run]
    split
    · exact hsent
    · exact hsent.trans (.of_eq rfl)
    · exact (hsent.trans (.of_eq rfl)).trans (.note _ _)

theorem unalarmed_storing {p : Archive.Path} : unalarmed.Storing p :=
  Frame.Recording.storing ⟨fun h _ => .of_eq h⟩

/-- Nothing is said, and no alarm is given. -/
def steady : Frame := silent.and unalarmed

instance steady_hears {listens : Bool} : steady.Hears listens :=
  inferInstanceAs ((silent.and unalarmed).Hears listens)

theorem steady_quiet : steady.Quiet := silent_quiet.and unalarmed_online.toQuiet

theorem steady_storing {p : Archive.Path} : steady.Storing p := silent_storing.and unalarmed_storing

theorem keeps_write (piece : List UInt8) : Keeps steady (write piece) := by
  intro w
  rw [write_run]
  exact ⟨.of_eq rfl rfl rfl, .of_eq rfl⟩

theorem keeps_writes (pieces : List (List UInt8)) : Keeps steady (pieces.forM write) := by
  intro w
  rw [forM_write]
  exact ⟨.of_eq rfl rfl rfl, .of_eq rfl⟩

/-! ## Policies that are heeded -/

/-- A mismatch: what it is about, the declared digest and the digest of what was received. -/
structure Mismatch where
  what : String
  expected : String
  actual : String

/-- The failure that a mismatch is to those who insist. -/
def Mismatch.failure (m : Mismatch) : Failure := .mismatch m.what m.expected m.actual

/-- The alarm that a mismatch is to those who do not. -/
def Mismatch.text (m : Mismatch) : String := m.failure.message.getD ""

/-- Two runs in a world, one under each policy: in the run that warns this was said and heard, and
these mismatches were found. -/
structure Heeds (x : IntegrityPolicy → Exchange α) (w : World) (d : Dialogue)
    (found : List Mismatch) : Prop where
  talk : Talk w d (x .warn w).2
  alarms : Alarms w (found.map Mismatch.text) (x .warn w).2
  /-- Without a mismatch there is nothing to disagree about. -/
  agrees : found = [] → x .strict w = x .warn w
  /-- The first mismatch ends the strict run. -/
  stops : ∀ m later, found = m :: later →
    (x .strict w).1 = .error m.failure ∧ ∃ d', d' <+: d ∧ Talk w d' (x .strict w).2

/-- A program that does not look at the policy. -/
theorem heeds_of_talk {x : Exchange α} {d : Dialogue} (ht : Talk w d (x w).2)
    (ha : Alarms w [] (x w).2) : Heeds (fun _ => x) w d [] :=
  ⟨ht, ha, fun _ => rfl, nofun⟩

namespace Heeds

variable {x : IntegrityPolicy → Exchange α} {f : IntegrityPolicy → α → Exchange β}
  {d d' : Dialogue} {found found' : List Mismatch}

/-- The first part of a program comes to its end, and the second part follows. -/
theorem bind_ok {a : α} (hx : Heeds x w d found) (hrun : x .warn w = (.ok a, w'))
    (hf : Heeds (fun p => f p a) w' d' found') :
    Heeds (fun p => x p >>= f p) w (d ++ d') (found ++ found') := by
  have ht := hx.talk
  have ha := hx.alarms
  rw [hrun] at ht ha
  have hwarn : (x .warn >>= f .warn) w = f .warn a w' := bind_run hrun
  refine ⟨?_, ?_, fun hnone => ?_, fun m later hfound => ?_⟩
  · rw [hwarn]
    exact ht.trans hf.talk
  · rw [hwarn, List.map_append]
    exact ha.trans hf.alarms
  · obtain ⟨hfirst, hsecond⟩ := List.append_eq_nil_iff.1 hnone
    show (x .strict >>= f .strict) w = (x .warn >>= f .warn) w
    rw [hwarn, bind_run ((hx.agrees hfirst).trans hrun), hf.agrees hsecond]
  · cases found with
    | nil =>
        -- the two runs part in the second half
        obtain ⟨herror, d₂, hprefix, ht₂⟩ := hf.stops m later hfound
        have hstrict : (x .strict >>= f .strict) w = f .strict a w' :=
          bind_run ((hx.agrees rfl).trans hrun)
        rw [hstrict]
        exact ⟨herror, d ++ d₂, (List.prefix_append_right_inj d).2 hprefix, ht.trans ht₂⟩
    | cons first others =>
        cases hfound
        obtain ⟨herror, d₁, hprefix, ht₁⟩ := hx.stops m others rfl
        have hstrict : (x .strict >>= f .strict) w = (.error m.failure, (x .strict w).2) :=
          bind_error (Prod.ext herror rfl)
        rw [hstrict]
        exact ⟨rfl, d₁, hprefix.trans (List.prefix_append d d'), ht₁⟩

/-- The first part of a program fails, and the second part does not follow. -/
theorem bind_error {e : Failure} (hx : Heeds x w d found) (hrun : x .warn w = (.error e, w')) :
    Heeds (fun p => x p >>= f p) w d found := by
  have hwarn : (x .warn >>= f .warn) w = (.error e, w') := Exchange.bind_error hrun
  have ht := hx.talk
  have ha := hx.alarms
  rw [hrun] at ht ha
  refine ⟨?_, ?_, fun hnone => ?_, fun m later hfound => ?_⟩
  · rwa [hwarn]
  · rwa [hwarn]
  · show (x .strict >>= f .strict) w = (x .warn >>= f .warn) w
    rw [hwarn, Exchange.bind_error ((hx.agrees hnone).trans hrun)]
  · obtain ⟨herror, d₁, hprefix, ht₁⟩ := hx.stops m later hfound
    have hstrict : (x .strict >>= f .strict) w = (.error m.failure, (x .strict w).2) :=
      Exchange.bind_error (Prod.ext herror rfl)
    rw [hstrict]
    exact ⟨rfl, d₁, hprefix, ht₁⟩

/-- What follows both runs, and keeps a mismatch the failure that it is. -/
theorem follow {y : IntegrityPolicy → Exchange β}
    (finish : Except Failure α × World → Except Failure β × World)
    (hy : ∀ p, y p w = finish (x p w))
    (ht : ∀ r v, Talk v [] (finish (r, v)).2) (ha : ∀ r v, Alarms v [] (finish (r, v)).2)
    (hm : ∀ (m : Mismatch) v, (finish (.error m.failure, v)).1 = .error m.failure)
    (hx : Heeds x w d found) : Heeds y w d found := by
  refine ⟨?_, ?_, fun hnone => ?_, fun m later hfound => ?_⟩
  · rw [hy]
    exact hx.talk.before (ht _ _)
  · rw [hy]
    exact hx.alarms.before (ha _ _)
  · rw [hy, hy, hx.agrees hnone]
  · obtain ⟨herror, d₁, hprefix, ht₁⟩ := hx.stops m later hfound
    have hpair : x .strict w = (.error m.failure, (x .strict w).2) := Prod.ext herror rfl
    rw [hy, hpair]
    exact ⟨hm m _, d₁, hprefix, ht₁.before (ht _ _)⟩

theorem withCleanup {cleanup : World → World} (ht : ∀ v, Talk v [] (cleanup v))
    (ha : ∀ v, Alarms v [] (cleanup v)) (hx : Heeds x w d found) :
    Heeds (fun p => withCleanup (x p) cleanup) w d found :=
  hx.follow (fun run => (run.1, cleanup run.2)) (fun _ => rfl) (fun _ => ht) (fun _ => ha)
    fun _ _ => rfl

theorem tryCatch {handle : Failure → Exchange α} (hk : ∀ e, Keeps steady (handle e))
    (hm : ∀ (m : Mismatch) v, (handle m.failure v).1 = .error m.failure) (hx : Heeds x w d found) :
    Heeds (fun p => (MonadExcept.tryCatch (x p) handle : Exchange α)) w d found := by
  refine hx.follow (fun run => match run with
    | (.ok a, v) => (.ok a, v)
    | (.error e, v) => handle e v) (fun p => tryCatch_run _ _ _) (fun r v => ?_) (fun r v => ?_) hm
  · cases r with
    | ok a => exact .refl v
    | error e => exact (hk e v).1
  · cases r with
    | ok a => exact .refl v
    | error e => exact (hk e v).2

theorem mapFailure {f : Failure → Failure} (hf : ∀ m : Mismatch, f m.failure = m.failure)
    (hx : Heeds x w d found) : Heeds (fun p => mapFailure (x p) f) w d found :=
  hx.tryCatch (fun _ => keeps_throw _) fun m _ =>
    congrArg Except.error (hf m)

theorem warnOnFailure {source : LogSource} {message : String → String} (hs : source ≠ .integrity)
    (hx : Heeds x w d found) : Heeds (fun p => warnOnFailure source message (x p)) w d found :=
  hx.tryCatch (steady_quiet.calm.keeps_warning hs message) fun _ _ => rfl

end Heeds

end Exchange

end ImageTransfer
