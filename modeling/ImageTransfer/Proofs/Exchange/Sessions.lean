import ImageTransfer.Proofs.Exchange.Determined
import ImageTransfer.Proofs.Exchange.Responses

/-!
# Sessions that take turns

`permit` watches the events of a run: a session is opened only while it is closed and closed only while
it is open, and a request needs a session. The frame `orderly` says that all events of a run are
permitted, and that the client knows in the end whether its session is open.

A request alone is not orderly, for somebody has to have opened the session. So there is a second
frame, `inSession`, which is about runs that begin in an open session and never close it. All that a
client does is kept to that frame by the lemmas that every frame has. What is left is how the session
comes to be open: a call that makes sure of it first runs as it would have run in an open one
(`Connects`), and so it is orderly from every world (`Connects.orderly`).
-/

namespace ImageTransfer

/-- Which sessions are open after an event, unless the event must not happen. -/
def permit (sessions : SessionOwner → Bool) : Event → Option (SessionOwner → Bool)
  | .sessionOpened owner _ =>
    if sessions owner then none else some (Function.update sessions owner true)
  | .sessionClosed owner =>
    if sessions owner then some (Function.update sessions owner false) else none
  | .sent _ => if sessions .client || sessions .probe then some sessions else none
  | _ => some sessions

/-- Whether the session of an owner is open after events, by the last of them that is about it. -/
def openAt (owner : SessionOwner) (before : Bool) (es : List Event) : Bool :=
  (es.filterMap (Event.turn? owner)).getLastD before

variable {sessions sessions' : SessionOwner → Bool} {owner : SessionOwner} {e : Event}
  {es : List Event}

/-- An event that is nobody's turn and no request is always permitted. -/
theorem permit_aside (hturn : ∀ owner, e.turn? owner = none) (hrequest : e.request? = none) :
    permit sessions e = some sessions := by
  cases e with
  | sessionOpened other timeout => exact absurd (hturn other) (by simp [Event.turn?])
  | sessionClosed other => exact absurd (hturn other) (by simp [Event.turn?])
  | sent q => exact absurd hrequest nofun
  | _ => rfl

/-- A session that is turned over is not what it was, and the others are. -/
theorem update_turn {other : SessionOwner} {b : Bool} (hother : sessions other ≠ b)
    (owner : SessionOwner) :
    ((if other = owner then some b else none) = none ∧
      Function.update sessions other b owner = sessions owner) ∨
    ((if other = owner then some b else none) = some (Function.update sessions other b owner) ∧
      sessions owner ≠ Function.update sessions other b owner) := by
  by_cases howner : other = owner
  · right
    subst howner
    rw [Function.update_self]
    exact ⟨if_pos rfl, hother⟩
  · left
    exact ⟨if_neg howner, Function.update_of_ne (Ne.symm howner) _ _⟩

/-- Only its own turn changes whether a session is open, and a turn always changes it. -/
theorem permit_turn (h : permit sessions e = some sessions') (owner : SessionOwner) :
    (e.turn? owner = none ∧ sessions' owner = sessions owner) ∨
      (e.turn? owner = some (sessions' owner) ∧ sessions owner ≠ sessions' owner) := by
  cases e with
  | sessionOpened other timeout =>
      rw [permit] at h
      split at h
      · cases h
      · rename_i hclosed
        cases h
        exact update_turn hclosed owner
  | sessionClosed other =>
      rw [permit] at h
      split at h
      · rename_i hopen
        cases h
        exact update_turn (by rw [hopen]; decide) owner
      · cases h
  | sent q =>
      rw [permit] at h
      split at h
      · cases h
        exact .inl ⟨rfl, rfl⟩
      · cases h
  | _ =>
      cases h
      exact .inl ⟨rfl, rfl⟩

/-- **Of events that are permitted, the turns of each owner alternate**, and the last one says whether
the session is open in the end. -/
theorem permitted_turns (h : es.foldlM permit sessions = some sessions') (owner : SessionOwner) :
    (sessions owner :: es.filterMap (Event.turn? owner)).IsChain (· ≠ ·) ∧
      sessions' owner = openAt owner (sessions owner) es := by
  induction es generalizing sessions with
  | nil =>
      cases h
      exact ⟨.singleton _, rfl⟩
  | cons e es ih =>
      rw [List.foldlM_cons] at h
      obtain ⟨next, hnext, hrest⟩ := Option.bind_eq_some_iff.1 h
      obtain ⟨hchain, hlast⟩ := ih hrest
      obtain ⟨hnone, hsame⟩ | ⟨hturn, hother⟩ := permit_turn hnext owner
      · rw [openAt, List.filterMap_cons_none hnone]
        rw [hsame] at hchain hlast
        exact ⟨hchain, hlast⟩
      · rw [openAt, List.filterMap_cons_some hturn, List.getLastD_cons]
        exact ⟨.cons_cons hother hchain, hlast⟩

/-- **A request that is permitted is sent in an open session**, by all that has happened before. -/
theorem permitted_request (h : es.foldlM permit sessions = some sessions') {early late : List Event}
    {q : Request} (hes : es = early ++ .sent q :: late) :
    openAt .client (sessions .client) early = true ∨ openAt .probe (sessions .probe) early = true := by
  rw [hes, List.foldlM_append] at h
  obtain ⟨current, hearly, hlate⟩ := Option.bind_eq_some_iff.1 h
  rw [List.foldlM_cons] at hlate
  obtain ⟨_, hsent, _⟩ := Option.bind_eq_some_iff.1 hlate
  rw [← (permitted_turns hearly .client).2, ← (permitted_turns hearly .probe).2, ← Bool.or_eq_true]
  rw [permit] at hsent
  split at hsent
  · assumption
  · cases hsent

/-- The sessions that are open between the steps of a client: nobody is probing. -/
def World.openSessions (w : World) : SessionOwner → Bool
  | .client => w.hasSession
  | .probe => false

theorem openSessions_congr {w w' : World} (h : w'.hasSession = w.hasSession) :
    w'.openSessions = w.openSessions := by
  funext owner
  cases owner with
  | client => exact h
  | probe => rfl

theorem update_client (w : World) (b : Bool) :
    Function.update w.openSessions .client b = { w with hasSession := b }.openSessions := by
  funext owner
  cases owner with
  | client => exact Function.update_self _ _ _
  | probe =>
      have hother : SessionOwner.probe ≠ .client := nofun
      exact Function.update_of_ne hother _ _

namespace Exchange

variable {α β : Type} {timeout : Nat} {w : World}

/-! ## Runs that are orderly -/

/-- All that happens is permitted, and the client keeps count. -/
def orderly : Frame where
  rel w w' := ∃ es, w'.events.toList = w.events.toList ++ es ∧
    es.foldlM permit w.openSessions = some w'.openSessions
  refl _ := ⟨[], (List.append_nil _).symm, rfl⟩
  trans := by
    rintro u v w ⟨es, he, h⟩ ⟨es', he', h'⟩
    refine ⟨es ++ es', by rw [he', he, List.append_assoc], ?_⟩
    rw [List.foldlM_append, h]
    exact h'

/-- An event that is permitted. -/
theorem orderly_note {e : Event} {w' : World} (hevents : w'.events = w.events.push e)
    (h : permit w.openSessions e = some w'.openSessions) : orderly.rel w w' := by
  refine ⟨[e], by rw [hevents, Array.toList_push], ?_⟩
  rw [List.foldlM_cons, h]
  rfl

theorem orderly_aside {e : Event} (hturn : ∀ owner, e.turn? owner = none)
    (hrequest : e.request? = none) : orderly.rel w (w.note e) :=
  orderly_note rfl (permit_aside hturn hrequest)

instance orderly_hears {listens : Bool} : orderly.Hears listens :=
  ⟨fun _ _ _ _ _ => orderly_aside (fun _ => rfl) rfl⟩

/-- Routine is orderly, and so is to open the session of a client that has none. -/
theorem orderly_quiet : orderly.Quiet where
  note _ _ he := orderly_aside he.turn he.request
  session w timeout hclosed := by
    refine orderly_note rfl ?_
    show (if w.hasSession then none else some (Function.update w.openSessions .client true)) = _
    rw [hclosed, update_client]
    rfl

theorem orderly_closed (w : World) : orderly.rel w (closed w) := by
  unfold closed
  split
  · rename_i hopen
    refine orderly_note rfl ?_
    show (if w.hasSession then some (Function.update w.openSessions .client false) else none) = _
    rw [hopen, update_client]
    rfl
  · exact orderly.refl w

theorem hasSession_closed (w : World) : (closed w).hasSession = false := by
  unfold closed
  split
  · rfl
  · rename_i hopen
    exact Bool.eq_false_iff.2 hopen

/-- **A block with a session is orderly if what is done in it is.** -/
theorem orderly_withSession {x : Exchange α} (hx : Keeps orderly x) :
    Keeps orderly (withSession timeout x) :=
  keeps_bind (orderly_quiet.calm.keeps_ensureSession timeout) fun _ =>
    keeps_withCleanup hx orderly_closed

/-- The end of such a block leaves no session open, whatever has come of it. -/
theorem hasSession_withSession {x : Exchange α} {w' : World} {r : Except Failure α}
    (h : withSession timeout x w = (r, w')) : w'.hasSession = false := by
  rcases bind_cases h with ⟨_, w₁, _, hx⟩ | ⟨e, hfirst, _⟩
  · obtain ⟨w₂, _, rfl⟩ := withCleanup_inv hx
    exact hasSession_closed w₂
  · exact absurd (ensureSession_ok hfirst) nofun

/-! ## Runs in an open session -/

/-- A run that begins in an open session stays in it and is orderly. -/
def inSession : Frame where
  rel w w' := w.hasSession = true → w'.hasSession = true ∧ orderly.rel w w'
  refl w hopen := ⟨hopen, orderly.refl w⟩
  trans h₁ h₂ hopen :=
    have hfirst := h₁ hopen
    have hnext := h₂ hfirst.1
    ⟨hnext.1, orderly.trans hfirst.2 hnext.2⟩

theorem inSession_recording : inSession.Recording where
  of_eq hevents hsession hopen :=
    ⟨hsession.trans hopen, [], by rw [hevents, List.append_nil], by rw [openSessions_congr hsession]; rfl⟩

instance inSession_hears {listens : Bool} : inSession.Hears listens :=
  ⟨fun _ _ _ _ _ hopen => ⟨hopen, orderly_aside (fun _ => rfl) rfl⟩⟩

/-- In an open session all requests may be sent. -/
theorem inSession_online : inSession.Online where
  note w e he hopen := ⟨hopen, orderly_aside he.turn he.request⟩
  session w _ hclosed hopen := absurd (hclosed.symm.trans hopen) nofun
  send q := by
    refine keeps_of_rel fun w r w' h hopen => ?_
    have hsession := session_send h
    have hasked : permit w.openSessions (.sent q) = some w.openSessions := by
      show (if w.hasSession || false then _ else none) = _
      rw [hopen]
      rfl
    refine ⟨hsession.trans hopen, ?_⟩
    rcases send_events h with ⟨_, _, hevents⟩ | ⟨response, _, hevents⟩
    · refine ⟨_, hevents, ?_⟩
      rw [List.foldlM_cons, hasked, openSessions_congr hsession]
      rfl
    · refine ⟨_, hevents, ?_⟩
      rw [List.foldlM_cons, hasked, openSessions_congr hsession]
      rfl

/-! ## Sessions that are opened when they are needed -/

/-- A client without a session fails at once, or it runs as if it had opened one before. -/
def Connects (timeout : Nat) (x : Exchange α) : Prop :=
  ∀ w, w.hasSession = false →
    (∃ e, x w = (.error e, w)) ∨ x w = x (w.sessionOpened timeout)

theorem ensureSession_bind_opened (f : Unit → Exchange α) (hclosed : w.hasSession = false) :
    (ensureSession timeout >>= f) w = (ensureSession timeout >>= f) (w.sessionOpened timeout) := by
  have hfirst : ensureSession timeout w = (.ok (), w.sessionOpened timeout) := by
    rw [ensureSession_run, hclosed]
    rfl
  have hagain : ensureSession timeout (w.sessionOpened timeout) =
      (.ok (), w.sessionOpened timeout) := by
    rw [ensureSession_run]
    rfl
  rw [bind_run hfirst, bind_run hagain]

theorem connects_ensureSession (f : Unit → Exchange α) :
    Connects timeout (ensureSession timeout >>= f) :=
  fun _ hclosed => .inr (ensureSession_bind_opened f hclosed)

/-- A warning comes after the session. -/
theorem connects_warnOnFailure (source : LogSource) (message : String → String)
    (f : Unit → Exchange α) :
    Connects timeout (warnOnFailure source message (ensureSession timeout >>= f)) := by
  intro w hclosed
  right
  rw [warnOnFailure, tryCatch_run, tryCatch_run, ensureSession_bind_opened f hclosed]

theorem connects_throw (e : Failure) : Connects timeout (throw e : Exchange α) :=
  fun _ _ => .inl ⟨e, rfl⟩

namespace Connects

variable {x : Exchange α}

theorem bind (h : Connects timeout x) (f : α → Exchange β) : Connects timeout (x >>= f) := by
  intro w hclosed
  rcases h w hclosed with ⟨e, he⟩ | hsame
  · exact .inl ⟨e, bind_error he⟩
  · right
    show ExceptT.bindCont f (x w).1 (x w).2 = ExceptT.bindCont f (x _).1 (x _).2
    rw [hsame]

/-- **A call that makes sure of its session first is orderly from every world**, if it is in an open
one. -/
theorem orderly (h : Connects timeout x) (hx : Keeps inSession x) : Keeps orderly x := by
  intro w
  by_cases hopen : w.hasSession = true
  · exact (hx w hopen).2
  · have hclosed := Bool.eq_false_iff.2 hopen
    rcases h w hclosed with ⟨e, he⟩ | hsame
    · rw [he]
      exact Exchange.orderly.refl w
    · rw [hsame]
      exact Exchange.orderly.trans (orderly_quiet.session w timeout hclosed) (hx _ rfl).2

end Connects

/-- What is done with a session that is made sure of only has to be orderly in an open one. -/
theorem orderly_ensureSession {f : Unit → Exchange α}
    (hf : ∀ w, w.hasSession = true → orderly.rel w (f () w).2) :
    Keeps orderly (ensureSession timeout >>= f) := by
  intro w
  by_cases hopen : w.hasSession = true
  · have hrun : ensureSession timeout w = (.ok (), w) := by rw [ensureSession_run, if_pos hopen]
    rw [bind_run hrun]
    exact hf w hopen
  · have hrun : ensureSession timeout w = (.ok (), w.sessionOpened timeout) := by
      rw [ensureSession_run, if_neg hopen]
    rw [bind_run hrun]
    exact orderly.trans (orderly_quiet.session w timeout (Bool.eq_false_iff.2 hopen)) (hf _ rfl)

/-- A request is orderly in an open session, and then its answer may be used in any orderly way. -/
theorem orderly_send {q : Request} {f : Except Fault Response → Exchange α}
    (hf : ∀ answer, Keeps orderly (f answer)) (hopen : w.hasSession = true) :
    orderly.rel w ((send q >>= f) w).2 := by
  have hsend : orderly.rel w (send q w).2 := (inSession_online.send q w hopen).2
  rcases hrun : send q w with ⟨_ | answer, w₁⟩
  · rw [bind_error hrun]
    rwa [hrun] at hsend
  · rw [bind_run hrun]
    rw [hrun] at hsend
    exact orderly.trans hsend (hf answer w₁)

end Exchange

end ImageTransfer
