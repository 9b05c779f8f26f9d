import ImageTransfer.Proofs.Exchange.Sessions
import ImageTransfer.Proofs.Transfer.OpenResponses

/-!
# The sessions of a client

Whoever has a client may make calls, close the client, probe a registry, work in a block that closes
the client in the end, read from a response while it is open, raise errors and handle them, and do all
of this within one another. `Usage` is what can be done in that way, as a tree, and the law of the
sessions is proved by induction on it: each kind of use is orderly if its parts are.

A use does not look at what its calls give. That is no loss: somebody who does has, in each single
run, made a choice that a tree can make as well.
-/

namespace ImageTransfer.Transfer

open Exchange Registry

variable {decoders : Compression.Decoders} {α : Type} {s : Settings} {ref : Reference}
  {digest : String} {w : World}

/-! ## Calls -/

/-- A call, of which only the failure matters. -/
def Call.run (decoders : Compression.Decoders) (s : Settings) : Call → Exchange Unit
  | supportsVersion2 registry => discard (Registry.supportsVersion2 s registry)
  | getManifest ref => discard (Registry.getManifest s ref)
  | putManifest ref manifest => discard (Registry.putManifest s ref manifest)
  | hasBlob ref digest => discard (Registry.hasBlob s ref digest)
  | drainBlob ref digest accept => discard (Transfer.drainBlob s ref digest accept)
  | readBlob ref digest accept => discard (Registry.readBlob s ref digest accept)
  | upload ref digest listens data => discard (Registry.upload s ref digest listens data)
  | uploadPieces ref digest listens total pieces =>
    discard (Registry.uploadPieces s ref digest listens total pieces)
  | mountBlob source target digest => discard (Registry.mountBlob s source target digest)
  | copyBlob source target digest listens => Registry.copyBlob s source target digest listens
  | copyImage source target listens => discard (Transfer.copyImage s source target listens)
  | exportImage policy ref listens => discard (Transfer.exportImage decoders s policy ref listens)
  | inspectImage policy ref => discard (Transfer.inspectImage s policy ref)
  | pullBlob policy ref digest => discard (Transfer.pullBlob s policy ref digest)

/-- What a run gives does not matter to the world that it leaves. -/
theorem discard_after (x : Exchange α) (w : World) : ((discard x : Exchange Unit) w).2 = (x w).2 := by
  have hdiscard : (discard x : Exchange Unit) = x >>= fun _ => pure () := rfl
  rcases hx : x w with ⟨_ | a, w₁⟩
  · rw [hdiscard, bind_error hx]
  · rw [hdiscard, bind_run hx]
    rfl

theorem Call.run_after (s : Settings) (w : World) (call : Call) :
    (call.run decoders s w).2 = call.after decoders s w := by
  cases call with
  | copyBlob source target digest listens => rfl
  | _ => exact discard_after _ w

theorem inSession_heedless : inSession.Heedless where
  warning _ _ hopen := ⟨hopen, orderly_aside (fun _ => rfl) rfl⟩

/-- In an open session every call is orderly. -/
theorem Call.inSession (s : Settings) (call : Call) : Keeps inSession (call.run decoders s) := by
  intro w
  have hF : Exchange.inSession.Serving Exchange.inSession := inSession_online.serving
  rw [call.run_after]
  exact call.kept hF hF inSession_heedless inSession_recording inSession_recording w

/-! ## How calls come to a session -/

theorem connects_checkAddress {f : Unit → Exchange α} (hf : Connects s.timeout (f ())) :
    Connects s.timeout (checkAddress digest >>= f) := by
  intro w hclosed
  unfold checkAddress
  split
  · exact hf w hclosed
  · exact .inl ⟨_, rfl⟩

theorem connects_foldBlob {σ : Type} {accept : List String} {start : σ}
    {step : σ → List UInt8 → Exchange σ} :
    Connects s.timeout (foldBlob s ref digest accept start step) :=
  connects_checkAddress (connects_ensureSession _)

theorem connects_uploadWith {t : UploadTask} {send : UploadState → Exchange UploadState} :
    Connects s.timeout (uploadWith s t send) :=
  connects_checkAddress (connects_ensureSession _)

theorem connects_copyImage {source target : Reference} {listens : Bool} :
    Connects s.timeout (copyImage s source target listens) :=
  (connects_warnOnFailure _ _ _).bind _

theorem connects_exportImage {policy : Option IntegrityPolicy} {listens : Bool} :
    Connects s.timeout (exportImage decoders s policy ref listens) := by
  unfold exportImage
  split
  · exact (connects_warnOnFailure _ _ _).bind _
  · exact connects_throw _

theorem orderly_heedless : orderly.Heedless where
  warning _ _ := orderly_aside (fun _ => rfl) rfl

/-- A blob that is pulled is announced before there is a session. -/
theorem orderly_pullBlob {policy : Option IntegrityPolicy} :
    Keeps orderly (pullBlob s policy ref digest) := by
  refine keeps_bind (keeps_checkAddress _) fun _ =>
    keeps_bind (orderly_quiet.calm.keeps_log (by decide) _ _) fun _ =>
      keeps_bind (keeps_ofExcept _ _) fun start => ?_
  refine keeps_bind (connects_foldBlob.orderly ?_) fun _ =>
    keeps_bind (keeps_checkDigest orderly_heedless _ _ _) fun _ => keeps_pure _
  refine keeps_foldBlob inSession_online.serving fun _ piece => ?_
  exact keeps_bind (inSession_recording.keeps_write piece) fun _ => keeps_pure _

/-- **A call is orderly from every world**: in one without a session, it opens one before its first
request. -/
theorem Call.orderly (s : Settings) (call : Call) : Keeps orderly (call.run decoders s) := by
  have hconnects (h : Connects s.timeout (call.run decoders s)) :
      Keeps Exchange.orderly (call.run decoders s) :=
    h.orderly (call.inSession s)
  cases call with
  | supportsVersion2 registry => exact hconnects ((connects_ensureSession _).bind _)
  | getManifest ref => exact hconnects ((connects_ensureSession _).bind _)
  | putManifest ref manifest => exact hconnects ((connects_ensureSession _).bind _)
  | hasBlob ref digest => exact hconnects ((connects_ensureSession _).bind _)
  | drainBlob ref digest accept => exact hconnects (connects_foldBlob.bind _)
  | readBlob ref digest accept => exact hconnects ((connects_foldBlob.bind _).bind _)
  | upload ref digest listens data => exact hconnects (connects_uploadWith.bind _)
  | uploadPieces ref digest listens total pieces => exact hconnects (connects_uploadWith.bind _)
  | mountBlob source target digest => exact hconnects ((connects_ensureSession _).bind _)
  | copyBlob source target digest listens => exact hconnects ((connects_ensureSession _).bind _)
  | copyImage source target listens => exact hconnects (connects_copyImage.bind _)
  | exportImage policy ref listens => exact hconnects (connects_exportImage.bind _)
  | inspectImage policy ref => exact hconnects (((connects_ensureSession _).bind _).bind _)
  | pullBlob policy ref digest => exact keeps_bind orderly_pullBlob fun _ => keeps_pure _

/-! ## Probes and open blobs -/

/-- **A probe has a session of its own**, which is open for its one request and the response to it,
whatever comes of them. The client's session is left alone. -/
theorem probe_events (s : Settings) (registry : String) (w : World) :
    ∃ heard : List Event, (heard = [] ∨ ∃ response, heard = [.opened response, .released]) ∧
      (probe s registry w).2.events.toList = w.events.toList ++
        (.sessionOpened .probe s.timeout :: .sent (getRequest (probeUrl s registry) []) ::
          (heard ++ [.sessionClosed .probe])) ∧
      (probe s registry w).2.hasSession = w.hasSession := by
  rcases hrun : probe s registry w with ⟨r, w'⟩
  obtain ⟨_, w₀, hnote, hrest⟩ | ⟨_, hnote, _⟩ := bind_cases hrun
  case inr => exact absurd (note_inv hnote).1 nofun
  obtain ⟨-, rfl⟩ := note_inv hnote
  obtain ⟨v, hasked, -⟩ := bind_calculates (fun _ => calculates_ofExcept _ id) hrest
  obtain ⟨w₁, hresponse, rfl⟩ := withCleanup_inv hasked
  have hbefore : (w.note (.sessionOpened .probe s.timeout)).events.toList =
      w.events.toList ++ [.sessionOpened .probe s.timeout] := Array.toList_push
  rcases bind_cases hresponse with ⟨answer, w₂, hsend, huse⟩ | ⟨e, hsend, _⟩
  · have hsession := session_send hsend
    rcases send_events hsend with ⟨f, hanswer, hevents⟩ | ⟨response, hanswer, hevents⟩
    · cases hanswer
      obtain ⟨-, rfl⟩ := throw_inv huse
      refine ⟨[], .inl rfl, ?_, hsession⟩
      show (w₁.events.push _).toList = _
      rw [Array.toList_push, hevents, hbefore]
      simp
    · cases hanswer
      obtain ⟨w₃, hread, rfl⟩ := releasing_inv huse
      obtain ⟨-, rfl⟩ := pure_inv hread
      refine ⟨_, .inr ⟨response, rfl⟩, ?_, hsession⟩
      show ((w₃.events.push .released).push _).toList = _
      rw [Array.toList_push, Array.toList_push, hevents, hbefore]
      simp
  · rcases send_events hsend with ⟨_, hanswer, _⟩ | ⟨_, hanswer, _⟩
    · cases hanswer
    · cases hanswer

theorem orderly_probe (registry : String) : Keeps orderly (probe s registry) := by
  intro w
  obtain ⟨heard, hheard, hevents, hsession⟩ := probe_events s registry w
  refine ⟨_, hevents, ?_⟩
  have hfree : w.openSessions .probe = false := rfl
  have hopened : permit w.openSessions (.sessionOpened .probe s.timeout) =
      some (Function.update w.openSessions .probe true) := by
    rw [permit, hfree]
    rfl
  have hsent : ∀ q, permit (Function.update w.openSessions .probe true) (.sent q) =
      some (Function.update w.openSessions .probe true) := by
    intro q
    rw [permit, Function.update_self, Bool.or_true]
    rfl
  have hclosed : permit (Function.update w.openSessions .probe true) (.sessionClosed .probe) =
      some w.openSessions := by
    rw [permit, Function.update_self, Function.update_idem, ← hfree, Function.update_eq_self]
    rfl
  have hpassed : heard.foldlM permit (Function.update w.openSessions .probe true) =
      some (Function.update w.openSessions .probe true) := by
    rcases hheard with rfl | ⟨response, rfl⟩
    · rfl
    · rfl
  rw [openSessions_congr hsession]
  simp [hopened, hsent, hpassed, hclosed]

/-- A blob is asked for in a session, and its response may be used in any orderly way, even if that
closes the session. -/
theorem orderly_withBlob {accept : List String} {use : Response → Exchange α}
    (hu : ∀ response, Keeps orderly (use response)) :
    Keeps orderly (withBlob s ref digest accept use) := by
  refine keeps_bind (keeps_checkAddress _) fun _ => orderly_ensureSession fun w hopen => ?_
  have hlogged : orderly.rel w (w.note (.logged .client .debug s!"GET {blobUrl s ref digest}")) :=
    orderly_aside (fun _ => rfl) rfl
  refine orderly.trans hlogged (orderly_send (fun answer => ?_) hopen)
  cases answer with
  | error f => exact keeps_throw _
  | ok response =>
      exact orderly_quiet.keeps_releasing (keeps_bind (keeps_ofExcept _ _) fun _ => hu response)

/-! ## What can be done with a client -/

/-- A use of a client. -/
inductive Usage
  | done
  | fail (e : Failure)
  | call (call : Call)
  | probe (registry : String)
  | close
  /-- A block that has a session in the beginning and none in the end. -/
  | within (inner : Usage)
  /-- A block in which the response that serves a blob is open. -/
  | blob (ref : Reference) (digest : String) (accept : List String) (use : Response → Usage)
  | andThen (first next : Usage)
  | orElse (first : Usage) (handler : Failure → Usage)

/-- A use is made: what follows a failure is left out, up to where it is handled. -/
def Usage.run (decoders : Compression.Decoders) (s : Settings) : Usage → Exchange Unit
  | done => pure ()
  | fail e => throw e
  | call c => c.run decoders s
  | probe registry => Registry.probe s registry
  | close => Exchange.close
  | within inner => withSession s.timeout (inner.run decoders s)
  | blob ref digest accept use =>
    withBlob s ref digest accept fun response => (use response).run decoders s
  | andThen first next => do
    first.run decoders s
    next.run decoders s
  | orElse first handler => tryCatch (first.run decoders s) fun e => (handler e).run decoders s

/-- **Every use of a client is orderly**, if its parts are. -/
theorem Usage.orderly (s : Settings) (usage : Usage) : Keeps orderly (usage.run decoders s) := by
  induction usage with
  | done => exact keeps_pure ()
  | fail e => exact keeps_throw e
  | call c => exact c.orderly s
  | probe registry => exact orderly_probe registry
  | close => exact orderly_closed
  | within inner ih => exact orderly_withSession ih
  | blob ref digest accept use ih => exact orderly_withBlob ih
  | andThen first next ihFirst ihNext => exact keeps_bind ihFirst fun _ => ihNext
  | orElse first handler ihFirst ihHandler => exact keeps_tryCatch ihFirst ihHandler

/-- **The sessions of a client take turns, however it is used.** The events of a use alternately open
and close the client's session, beginning with what it was not before, and the client knows in the end
which was the last. A request is sent while that session is open, unless it is a probe's. To close a
client without a session does nothing, a block leaves no session open, and a probe opens one session
of its own, sends its request in it, closes it, and leaves the client alone. -/
theorem usage_takesTurns (decoders : Compression.Decoders) (s : Settings) (usage : Usage)
    (w : World) :
    (∃ es, (usage.run decoders s w).2.events.toList = w.events.toList ++ es ∧
      (w.hasSession :: es.filterMap (Event.turn? .client)).IsChain (· ≠ ·) ∧
      (usage.run decoders s w).2.hasSession = openAt .client w.hasSession es ∧
      ∀ early q late, es = early ++ .sent q :: late → openAt .probe false early = false →
        openAt .client w.hasSession early = true) ∧
    (w.hasSession = false → (Usage.close.run decoders s w).2 = w) ∧
    ((Usage.within usage).run decoders s w).2.hasSession = false ∧
    ∀ registry, ∃ heard : List Event, (heard = [] ∨ ∃ response, heard = [.opened response, .released]) ∧
      ((Usage.probe registry).run decoders s w).2.events.toList = w.events.toList ++
        (.sessionOpened .probe s.timeout :: .sent (getRequest (probeUrl s registry) []) ::
          (heard ++ [.sessionClosed .probe])) ∧
      ((Usage.probe registry).run decoders s w).2.hasSession = w.hasSession := by
  refine ⟨?_, fun hclosed => ?_, ?_, fun registry => probe_events s registry w⟩
  · obtain ⟨es, hevents, hpermitted⟩ := usage.orderly s w
    obtain ⟨hchain, hlast⟩ := permitted_turns hpermitted .client
    refine ⟨es, hevents, hchain, hlast, fun early q late hes hprobe => ?_⟩
    rcases permitted_request hpermitted hes with hopen | hprobing
    · exact hopen
    · exact absurd (hprobe.symm.trans hprobing) nofun
  · show closed w = w
    rw [closed, hclosed]
    rfl
  · exact hasSession_withSession (rfl : withSession s.timeout (usage.run decoders s) w = (_, _))

end ImageTransfer.Transfer
