import ImageTransfer.Proofs.Exchange.Disk
import ImageTransfer.Proofs.Exchange.Sink

/-!
# What programs fail with

Callers tell failures apart by their kind, so what has to be known of a program is which kinds its
failures can have. `FailsIn K` says that they are among `K`, in whatever world the program runs. It
says nothing about programs that give a value.

A program fails as its parts do. Some parts never fail, whatever `K` is, and the machine may refuse
what is asked of it, which is a failure of the kind `system`.
-/

namespace ImageTransfer.Exchange

variable {α β σ : Type} {K : FailureKind → Prop} {x y : Exchange α}

/-- Every failure of the program is of one of these kinds. -/
def FailsIn (K : FailureKind → Prop) (x : Exchange α) : Prop :=
  ∀ (w w' : World) (e : Failure), x w = (.error e, w') → K e.kind

/-! ## Programs that are put together -/

theorem failsIn_pure (a : α) : FailsIn K (pure a : Exchange α) :=
  fun _ _ _ h => absurd (pure_inv h).1 nofun

theorem failsIn_throw {e : Failure} (he : K e.kind) : FailsIn K (throw e : Exchange α) := by
  intro w w' e' h
  obtain ⟨hthrown, -⟩ := throw_inv h
  cases hthrown
  exact he

theorem failsIn_of_ok (hx : ∀ w, ∃ a w', x w = (.ok a, w')) : FailsIn K x := by
  intro w w' e h
  obtain ⟨a, w₁, hok⟩ := hx w
  exact absurd (hok.symm.trans h) nofun

theorem failsIn_bind {f : α → Exchange β} (hx : FailsIn K x) (hf : ∀ a, FailsIn K (f a)) :
    FailsIn K (x >>= f) := by
  intro w w' e h
  rcases bind_cases h with ⟨a, w₁, -, h⟩ | ⟨e', h, he⟩
  · exact hf a _ _ e h
  · cases he
    exact hx _ _ e h

theorem failsIn_ite {c : Prop} [Decidable c] (hx : FailsIn K x) (hy : FailsIn K y) :
    FailsIn K (if c then x else y) := by
  split
  · exact hx
  · exact hy

theorem failsIn_ofExcept {ε : Type} {v : Except ε α} {failure : ε → Failure}
    (hv : ∀ e, v = .error e → K (failure e).kind) : FailsIn K (ofExcept v failure) := by
  cases v with
  | ok a => exact failsIn_pure a
  | error e => exact failsIn_throw (hv e rfl)

theorem failsIn_withCleanup {cleanup : World → World} (hx : FailsIn K x) :
    FailsIn K (withCleanup x cleanup) := by
  intro w w' e h
  obtain ⟨w₁, h, -⟩ := withCleanup_inv h
  exact hx _ _ e h

/-- A failure that is called something else has the kind of what it is called. -/
theorem failsIn_mapFailure {K' : FailureKind → Prop} {f : Failure → Failure} (hx : FailsIn K' x)
    (hf : ∀ e, K' e.kind → K (f e).kind) : FailsIn K (mapFailure x f) := by
  intro w w' e h
  rcases mapFailure_cases h with ⟨_, _, he⟩ | ⟨e', hfailed, he⟩
  · cases he
  · cases he
    exact hf e' (hx _ _ e' hfailed)

theorem failsIn_warnOnFailure {source : LogSource} {message : String → String} (hx : FailsIn K x) :
    FailsIn K (warnOnFailure source message x) := by
  intro w w' e h
  obtain ⟨w₁, h, -⟩ := warnOnFailure_cases h
  exact hx _ _ e h

theorem failsIn_foldlM {f : σ → α → Exchange σ} (hf : ∀ s a, FailsIn K (f s a)) (as : List α)
    (s : σ) : FailsIn K (as.foldlM f s) := by
  induction as generalizing s with
  | nil => exact failsIn_pure s
  | cons a as ih =>
      rw [List.foldlM_cons]
      exact failsIn_bind (hf s a) fun s' => ih s'

/-! ## Parts that never fail -/

theorem failsIn_note (e : Event) : FailsIn K (note e) :=
  fun _ _ _ h => absurd (note_inv h).1 nofun

theorem failsIn_log (source : LogSource) (level : LogLevel) (message : String) :
    FailsIn K (log source level message) := failsIn_note _

theorem failsIn_report (listens : Bool) (current total : Int) (message : String) :
    FailsIn K (report listens current total message) :=
  failsIn_ite (failsIn_note _) (failsIn_pure _)

theorem failsIn_ensureSession (timeout : Nat) : FailsIn K (ensureSession timeout) :=
  fun _ _ _ h => absurd (ensureSession_ok h) nofun

theorem failsIn_isStored (p : Archive.Path) : FailsIn K (isStored p) :=
  failsIn_of_ok fun w => ⟨_, w, rfl⟩

theorem failsIn_hasRoom (p : Archive.Path) (count : Nat) : FailsIn K (hasRoom p count) :=
  failsIn_of_ok fun w => ⟨_, w, rfl⟩

/-! ## Parts that the machine may refuse -/

section

variable (hsystem : K .system)

include hsystem

theorem failsIn_write (piece : List UInt8) : FailsIn K (write piece) := by
  intro w w' e h
  rw [write_run] at h
  split at h
  · cases h
    exact hsystem
  · cases h

theorem failsIn_writes (pieces : List (List UInt8)) : FailsIn K (pieces.forM write) := by
  induction pieces with
  | nil => exact failsIn_pure ()
  | cons piece pieces ih => exact failsIn_bind (failsIn_write hsystem piece) fun _ => ih

theorem failsIn_changeDisk (f : Disk → Disk) : FailsIn K (changeDisk f) := by
  intro w w' e h
  rw [changeDisk_run] at h
  split at h
  · cases h
    exact hsystem
  · cases h

theorem failsIn_appendFile (p : Archive.Path) (piece : List UInt8) :
    FailsIn K (appendFile p piece) := by
  refine failsIn_ite (failsIn_pure _) (failsIn_bind (failsIn_hasRoom _ _) fun room => ?_)
  exact failsIn_ite (failsIn_changeDisk hsystem _) (failsIn_throw hsystem)

theorem failsIn_storeFile (p : Archive.Path) (bytes : List UInt8) (modified : Int) :
    FailsIn K (storeFile p bytes modified) :=
  failsIn_bind (failsIn_changeDisk hsystem _) fun _ =>
    failsIn_bind (failsIn_appendFile hsystem _ _) fun _ => failsIn_changeDisk hsystem _

theorem failsIn_newDirectory (parent : Archive.Path) (beginning : String) (attempts : Nat) :
    FailsIn K (newDirectory parent beginning attempts) := by
  induction attempts with
  | zero => exact failsIn_throw hsystem
  | succ attempts ih =>
      refine failsIn_bind (failsIn_of_ok fun w => ⟨_, _, rfl⟩) fun name =>
        failsIn_bind (failsIn_isStored _) fun _ => failsIn_ite ih ?_
      exact failsIn_bind (failsIn_changeDisk hsystem _) fun _ => failsIn_pure _

theorem failsIn_withWorkDirectory {beginning : String} {z : Archive.Path → Exchange α}
    (hz : ∀ work, FailsIn K (z work)) : FailsIn K (withWorkDirectory beginning z) := by
  refine failsIn_bind (failsIn_of_ok fun w => ⟨w, w, rfl⟩) fun v =>
    failsIn_bind (failsIn_newDirectory hsystem _ _ _) fun work => ?_
  exact failsIn_withCleanup (hz work)

/-- A fault is explained, unless it is one of the machine. -/
theorem kind_failure {explain : String → Failure} (hexplain : ∀ reason, K (explain reason).kind)
    (f : Fault) : K (f.failure explain).kind := by
  unfold Fault.failure
  split
  · exact hexplain _
  · exact hsystem

theorem failsIn_withResponse {q : Request} {explain : String → Failure}
    {use : Response → Exchange α} (hexplain : ∀ reason, K (explain reason).kind)
    (hu : ∀ response, FailsIn K (use response)) : FailsIn K (withResponse q explain use) := by
  intro w w' e h
  rcases withResponse_cases h with ⟨f, -, -, he⟩ | ⟨response, w₁, w₂, -, -, huse, -⟩
  · cases he
    exact kind_failure hsystem hexplain f
  · exact hu response _ _ e huse

theorem failsIn_withResponseOr {q : Request} {otherwise : Exchange α} {use : Response → Exchange α}
    (ho : FailsIn K otherwise) (hu : ∀ response, FailsIn K (use response)) :
    FailsIn K (withResponseOr q otherwise use) := by
  intro w w' e h
  rcases withResponseOr_cases h with ⟨f, w₁, -, -, ⟨-, hx⟩ | ⟨-, he, -⟩⟩ |
    ⟨response, w₁, w₂, -, -, huse, -⟩
  · exact ho _ _ e hx
  · cases he
    exact hsystem
  · exact hu response _ _ e huse

theorem failsIn_readBody (response : Response) {explain : String → Failure}
    (hexplain : ∀ reason, K (explain reason).kind) : FailsIn K (readBody response explain) := by
  unfold readBody
  split
  · exact failsIn_pure _
  · exact failsIn_throw (kind_failure hsystem hexplain _)

end

end ImageTransfer.Exchange
