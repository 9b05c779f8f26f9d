import ImageTransfer.Proofs.Exchange.Dialogue
import Mathlib.Data.List.Forall2

/-!
# A run is determined by what it hears

Two worlds are alike for a client if they differ at most in what has happened and in what is going to
be answered. A run that hears the same in two such worlds does and says the same in both: it looks
neither at the record of events nor further ahead in the script than it has got. So a statement about
two runs is one about two scripts.

Some programs do not even listen to every answer. `Determined R` allows for that: `R` says which
answers to a request make no difference.
-/

namespace ImageTransfer

/-- The two worlds differ at most in their events and in their scripts. -/
structure Alike (w v : World) : Prop extends Untouched w v where
  session : v.hasSession = w.hasSession

theorem Alike.note {w v : World} (h : Alike w v) (e e' : Event) : Alike (w.note e) (v.note e') :=
  { h with }

/-- The first dialogue asks the same as the second, and hears what makes no difference. -/
def Similar (R : Request → Answer → Answer → Prop) : Dialogue → Dialogue → Prop :=
  List.Forall₂ fun p q => p.1 = q.1 ∧ R q.1 q.2 p.2

/-- A dialogue in which one answer is another one that makes no difference. -/
theorem similar_set {R : Request → Answer → Answer → Prop} (hR : ∀ q a, R q a a) {d : Dialogue}
    {i : Nat} {q : Request} {a b : Answer} (hi : d[i]? = some (q, a)) (hab : R q a b) :
    Similar R (d.set i (q, b)) d := by
  have hrefl : ∀ d : Dialogue, Similar R d d := fun d =>
    List.forall₂_same.2 fun p _ => ⟨rfl, hR p.1 p.2⟩
  induction d generalizing i with
  | nil => exact .nil
  | cons p d ih =>
      cases i with
      | zero =>
          cases hi
          exact .cons ⟨rfl, hab⟩ (hrefl d)
      | succ i => exact .cons ⟨rfl, hR p.1 p.2⟩ (ih hi)

/-- A dialogue that is similar to one in two parts has two parts, and its script is cut where its
first part ends. -/
theorem Similar.split {R : Request → Answer → Answer → Prop} {v : World} {d' d₁ d₂ : Dialogue}
    (h : Similar R d' (d₁ ++ d₂))
    (hr : replies v.silence v.answers (d₁ ++ d₂).length = d'.map Prod.snd) :
    ∃ d₁' d₂', d' = d₁' ++ d₂' ∧ Similar R d₁' d₁ ∧ Similar R d₂' d₂ ∧
      replies v.silence v.answers d₁.length = d₁'.map Prod.snd ∧
      ∀ v₁, Talk v d₁' v₁ → replies v₁.silence v₁.answers d₂.length = d₂'.map Prod.snd := by
  have h₁ := List.forall₂_take_append _ _ _ h
  have h₂ := List.forall₂_drop_append _ _ _ h
  have hlen := h₁.length_eq
  rw [← List.take_append_drop d₁.length d', List.map_append, List.length_append, replies_add] at hr
  obtain ⟨hr₁, hr₂⟩ := List.append_inj hr (by rw [length_replies, List.length_map, hlen])
  refine ⟨_, _, (List.take_append_drop _ _).symm, h₁, h₂, hr₁, fun v₁ hv => ?_⟩
  rw [hv.silence, hv.answers, hlen]
  exact hr₂

namespace Exchange

variable {α β σ : Type} {R : Request → Answer → Answer → Prop}

/-- A run that hears the same in a world that is alike, but for what makes no difference to it, goes
the same way. -/
structure Determined (R : Request → Answer → Answer → Prop) (x : Exchange α) : Prop where
  talks : Keeps talks x
  follows : ∀ {w w' v : World} {r : Except Failure α} {d d' : Dialogue}, x w = (r, w') →
    Talk w d w' → Alike w v → Similar R d' d →
    replies v.silence v.answers d.length = d'.map Prod.snd →
    ∃ v', x v = (r, v') ∧ Talk v d' v' ∧ Alike w' v'

/-- A part of a run in which nothing is said goes the same way in worlds that are alike. -/
theorem determined_of_silent {x : Exchange α} (ht : Keeps silent x)
    (hx : ∀ {w w' v : World} {r : Except Failure α}, x w = (r, w') → Alike w v →
      ∃ v', x v = (r, v') ∧ Alike w' v') : Determined R x where
  talks w := ⟨[], ht w⟩
  follows {w w' v r d d'} h hd ha hs _ := by
    have hnil : d = [] := by rw [← hd.dialogue_eq, (ht.rel h).dialogue_eq]
    subst hnil
    have hnil' : d' = [] := List.forall₂_nil_right_iff.1 hs
    subst hnil'
    obtain ⟨v', hv, ha'⟩ := hx h ha
    exact ⟨v', hv, ht.rel hv, ha'⟩

theorem determined_calculates {x : Exchange α} {c : Except Failure α} (hx : Calculates x c) :
    Determined R x := by
  refine determined_of_silent (fun w => ?_) fun {w w' v r} h ha => ?_
  · rw [hx w]
    exact .refl w
  · rw [hx w] at h
    obtain ⟨rfl, rfl⟩ := Prod.mk.inj h
    exact ⟨v, hx v, ha⟩

theorem determined_pure (a : α) : Determined R (pure a : Exchange α) :=
  determined_calculates (calculates_pure a)

theorem determined_throw (e : Failure) : Determined R (throw e : Exchange α) :=
  determined_calculates (calculates_throw e)

theorem determined_bind {x : Exchange α} {f : α → Exchange β} (hx : Determined R x)
    (hf : ∀ a, Determined R (f a)) : Determined R (x >>= f) where
  talks := keeps_bind hx.talks fun a => (hf a).talks
  follows {w w' v r d d'} h ht ha hs hr := by
    rcases bind_cases h with ⟨a, w₁, h₁, h₂⟩ | ⟨e, h₁, rfl⟩
    · obtain ⟨d₁, ht₁⟩ := hx.talks.rel h₁
      obtain ⟨d₂, ht₂⟩ := (hf a).talks.rel h₂
      have hd : d = d₁ ++ d₂ := by rw [← ht.dialogue_eq, (ht₁.trans ht₂).dialogue_eq]
      subst hd
      -- the other dialogue is cut at the same request
      obtain ⟨d₁', d₂', rfl, hs₁, hs₂, hr₁, hr₂⟩ := hs.split hr
      obtain ⟨v₁, hv₁, hu₁, ha₁⟩ := hx.follows h₁ ht₁ ha hs₁ hr₁
      obtain ⟨v₂, hv₂, hu₂, ha₂⟩ := (hf a).follows h₂ ht₂ ha₁ hs₂ (hr₂ v₁ hu₁)
      exact ⟨v₂, (bind_run hv₁).trans hv₂, hu₁.trans hu₂, ha₂⟩
    · obtain ⟨v₁, hv₁, hu₁, ha₁⟩ := hx.follows h₁ ht ha hs hr
      exact ⟨v₁, bind_error hv₁, hu₁, ha₁⟩

theorem determined_ite {c : Prop} [Decidable c] {x y : Exchange α} (hx : Determined R x)
    (hy : Determined R y) : Determined R (if c then x else y) := by
  split
  · exact hx
  · exact hy

theorem determined_note {e : Event} (he : e.request? = none) : Determined R (note e) := by
  refine determined_of_silent (fun w => .note w he) fun {w w' v r} h ha => ?_
  obtain ⟨rfl, rfl⟩ := note_inv h
  exact ⟨v.note e, rfl, ha.note e e⟩

theorem determined_ensureSession (timeout : Nat) : Determined R (ensureSession timeout) := by
  refine determined_of_silent (silent_quiet.calm.keeps_ensureSession timeout) fun {w w' v r} h ha => ?_
  rw [ensureSession_run] at h
  rw [ensureSession_run, ha.session]
  split at h <;> rename_i hs <;> obtain ⟨rfl, rfl⟩ := Prod.mk.inj h
  · exact ⟨v, if_pos hs, ha⟩
  · exact ⟨_, if_neg hs, { ha with session := rfl }⟩

/-- A request has nothing to do with the session. -/
theorem session_send {q : Request} {w w' : World} {r : Except Failure (Except Fault Response)}
    (h : send q w = (r, w')) : w'.hasSession = w.hasSession := by
  rw [send_run] at h
  split at h <;> (obtain ⟨_, rfl⟩ := Prod.mk.inj h; rfl)

/-- Two runs of the same request: each gets its own answer, and the worlds stay alike. -/
theorem send_alike {q : Request} {w w' v : World} {r : Except Failure (Except Fault Response)}
    {d d' : Dialogue} (h : send q w = (r, w')) (hd : Talk w d w') (ha : Alike w v)
    (hs : Similar R d' d) (hr : replies v.silence v.answers d.length = d'.map Prod.snd) :
    ∃ a b v', R q a b ∧ r = .ok (outcome a) ∧ send q v = (.ok (outcome b), v') ∧ Talk v d' v' ∧
      Alike w' v' := by
  obtain ⟨a, rfl, ht, hu⟩ := send_cases h
  have hsingle : d = [(q, a)] := by rw [← hd.dialogue_eq, ht.dialogue_eq]
  subst hsingle
  rcases hv : send q v with ⟨r', v'⟩
  obtain ⟨b, rfl, ht', hu'⟩ := send_cases hv
  -- the other dialogue has one entry, which is what the other world answers
  obtain ⟨⟨q', b'⟩, rest, hp, hrest, rfl⟩ := List.forall₂_cons_right_iff.1 hs
  have hnil : rest = [] := List.forall₂_nil_right_iff.1 hrest
  obtain ⟨hq, hR⟩ := hp
  dsimp only at hq hR
  subst hnil hq
  have hb : b' = b := by
    have hheard := ht'.heard
    rw [show [(q', b)].length = [(q', a)].length from rfl, hr] at hheard
    simpa using hheard.symm
  subst hb
  exact ⟨a, b', v', hR, rfl, rfl, ht',
    { toUntouched := (hu.symm.trans ha.toUntouched).trans hu'
      session := (session_send hv).trans (ha.session.trans (session_send h).symm) }⟩

/-- A request whose answer is listened to. -/
theorem determined_send {q : Request} (hR : ∀ a b, R q a b → b = a) : Determined R (send q) where
  talks := talks_online.send q
  follows h hd ha hs hr := by
    obtain ⟨a, b, v', hab, rfl, hv, ht, ha'⟩ := send_alike h hd ha hs hr
    obtain rfl := hR a b hab
    exact ⟨v', hv, ht, ha'⟩

/-- Two silent programs that go the same way in worlds that are alike. -/
structure Interchangeable (x y : Exchange α) : Prop where
  first : Keeps silent x
  second : Keeps silent y
  follows : ∀ {w w' v : World} {r : Except Failure α}, x w = (r, w') → Alike w v →
    ∃ v', y v = (r, v') ∧ Alike w' v'

/-- What follows a request, if the answers that make no difference lead to programs that make
none. -/
theorem determined_send_bind {q : Request} {k : Except Fault Response → Exchange α}
    (hk : ∀ o, Determined R (k o))
    (hR : ∀ a b, R q a b → b = a ∨ Interchangeable (k (outcome a)) (k (outcome b))) :
    Determined R (send q >>= k) where
  talks := keeps_bind (talks_online.send q) fun o => (hk o).talks
  follows {w w' v r d d'} h ht ha hs hr := by
    rcases bind_cases h with ⟨o, w₁, h₁, h₂⟩ | ⟨e, h₁, _⟩
    case inr =>
      obtain ⟨_, ho, _⟩ := send_cases h₁
      exact absurd ho (by simp)
    obtain ⟨c, _, ht₁, _⟩ := send_cases h₁
    obtain ⟨d₂, ht₂⟩ := (hk o).talks.rel h₂
    have hd : d = [(q, c)] ++ d₂ := by rw [← ht.dialogue_eq, (ht₁.trans ht₂).dialogue_eq]
    subst hd
    obtain ⟨d₁', d₂', rfl, hs₁, hs₂, hr₁, hr₂⟩ := hs.split hr
    obtain ⟨a, b, v₁, hab, ho, hv₁, hu₁, ha₁⟩ := send_alike h₁ ht₁ ha hs₁ hr₁
    cases ho
    rcases hR a b hab with rfl | hsame
    · obtain ⟨v₂, hv₂, hu₂, ha₂⟩ := (hk _).follows h₂ ht₂ ha₁ hs₂ (hr₂ v₁ hu₁)
      exact ⟨v₂, (bind_run hv₁).trans hv₂, hu₁.trans hu₂, ha₂⟩
    · -- nothing more is said in either world
      have hnil : d₂ = [] := by rw [← ht₂.dialogue_eq, (hsame.first.rel h₂).dialogue_eq]
      subst hnil
      have hnil' : d₂' = [] := List.forall₂_nil_right_iff.1 hs₂
      subst hnil'
      obtain ⟨v₂, hv₂, ha₂⟩ := hsame.follows h₂ ha₁
      exact ⟨v₂, (bind_run hv₁).trans hv₂, hu₁.trans (hsame.second.rel hv₂), ha₂⟩

/-! ## Programs of a client -/

theorem determined_ofExcept {ε : Type} (x : Except ε α) (failure : ε → Failure) :
    Determined R (ofExcept x failure) := determined_calculates (calculates_ofExcept x failure)

theorem determined_withCleanup {x : Exchange α} {cleanup : World → World} (hx : Determined R x)
    (ht : ∀ w, Talk w [] (cleanup w))
    (hc : ∀ {w v}, Alike w v → Alike (cleanup w) (cleanup v)) :
    Determined R (withCleanup x cleanup) where
  talks := keeps_withCleanup hx.talks fun w => ⟨[], ht w⟩
  follows {w w' v r d d'} h hd ha hs hr := by
    obtain ⟨w₁, h₁, rfl⟩ := withCleanup_inv h
    obtain ⟨d₁, ht₁⟩ := hx.talks.rel h₁
    have hd : d = d₁ := by rw [← hd.dialogue_eq, (ht₁.before (ht w₁)).dialogue_eq]
    subst hd
    obtain ⟨v₁, hv₁, hu₁, ha₁⟩ := hx.follows h₁ ht₁ ha hs hr
    refine ⟨cleanup v₁, ?_, hu₁.before (ht v₁), hc ha₁⟩
    show ((x v).1, cleanup (x v).2) = _
    rw [hv₁]

theorem determined_releasing {x : Exchange α} (hx : Determined R x) : Determined R (releasing x) :=
  determined_withCleanup hx (fun w => .note w rfl) fun ha => ha.note .released .released

theorem determined_withResponse {q : Request} {explain : String → Failure}
    {use : Response → Exchange α} (hR : ∀ a b, R q a b → b = a)
    (hu : ∀ response, Determined R (use response)) :
    Determined R (withResponse q explain use) :=
  determined_bind (determined_send hR) fun o => by
    cases o with
    | error f => exact determined_throw _
    | ok response => exact determined_releasing (hu response)

theorem determined_withResponseOr {q : Request} {otherwise : Exchange α}
    {use : Response → Exchange α} (hR : ∀ a b, R q a b → b = a) (ho : Determined R otherwise)
    (hu : ∀ response, Determined R (use response)) :
    Determined R (withResponseOr q otherwise use) :=
  determined_bind (determined_send hR) fun o => by
    cases o with
    | error f => exact determined_ite ho (determined_throw _)
    | ok response => exact determined_releasing (hu response)

theorem determined_foldlM {f : σ → α → Exchange σ} (hf : ∀ s a, Determined R (f s a)) (as : List α)
    (s : σ) : Determined R (as.foldlM f s) := by
  induction as generalizing s with
  | nil => exact determined_pure s
  | cons a as ih =>
      rw [List.foldlM_cons]
      exact determined_bind (hf s a) fun s' => ih s'

end Exchange

end ImageTransfer
