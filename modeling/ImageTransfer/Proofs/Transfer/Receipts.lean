import ImageTransfer.Proofs.Compression.Stream
import ImageTransfer.Proofs.Exchange.Alarms
import ImageTransfer.Proofs.Transfer.Staging

/-!
# Receipts

A blob that was received to its end leaves a receipt (`Receives`), and its check gives an alarm if the
receipt shows another digest than the declared one, and only then.

A program `Checks` the blobs that it downloads if it heeds the policy and the mismatches that are
found are those of the receipts. Programs do so if their parts do, where a part is either steady, and
has nothing to do with blobs and policies, or a download with the check that follows it.
-/

namespace ImageTransfer.Transfer

open Exchange Registry

variable {decoders : Compression.Decoders} {α β : Type} {s : Settings} {ref : Reference}
  {w w' : World}

/-! ## Blobs and receipts -/

/-- Where a blob goes while it arrives. -/
inductive Use
  /-- It is kept. -/
  | kept
  /-- It is decoded into a file. -/
  | stored
  /-- It is written out. -/
  | written

/-- The machine has refused to put something there, and the run has ended with that. What is kept is
not refused. -/
def Use.IsRefused (u : Use) (w : World) : Prop :=
  match u with
  | kept => False
  | stored => w.IsDenied
  | written => w.sink.isFull = true

/-- A blob that an operation downloads. -/
structure Blob where
  /-- What a mismatch calls it. -/
  what : String
  digest : String
  /-- What it may be served as. -/
  accept : List String
  use : Use

namespace Blob

/-- The configuration of an image. -/
def config (digest : String) : Blob := ⟨"image config", digest, configMediaTypes, .kept⟩

/-- A layer of an image. -/
def layer (digest : String) : Blob := ⟨s!"layer {digest}", digest, [], .stored⟩

/-- A blob that somebody asked for by its digest. -/
def pulled (digest : String) : Blob := ⟨s!"blob {digest}", digest, [], .written⟩

/-- The request for a blob. -/
def request (b : Blob) (s : Settings) (ref : Reference) : Request :=
  blobRequest s ref b.digest b.accept

/-- An answer serves these bytes of a blob to the end: as a success, without breaking off, and if they
are to be stored, they can be decoded into a file. -/
def IsServed (decoders : Compression.Decoders) (b : Blob) (a : Answer) (bytes : List UInt8) :
    Prop :=
  ∃ response, a = .response response ∧ response.status = 200 ∧ response.broken = none ∧
    response.body = bytes ∧
    (b.use = .stored → ∃ content,
      Compression.Decompressed decoders bytes content ∧ content.length ≤ Disk.fileLimit)

theorem not_isServed {b : Blob} {a : Answer} {e : Failure} (h : servedBlob b.digest a = .error e)
    (bytes : List UInt8) : ¬ b.IsServed decoders a bytes := by
  rintro ⟨response, rfl, hs, _⟩
  exact absurd ((servedBlob_eq_ok.2 ⟨rfl, hs⟩).symm.trans h) nofun

/-- A body that breaks off serves nothing. -/
theorem not_isServed_of_body {b : Blob} {response : Response} {explain : String → Failure}
    {e : Failure} (h : wholeBody response explain = .error e) (bytes : List UInt8) :
    ¬ b.IsServed decoders (.response response) bytes := by
  rintro ⟨_, hr, _, hb, _⟩
  cases hr
  exact absurd ((wholeBody_eq_ok.2 ⟨hb, rfl⟩).symm.trans h) nofun

/-- A response serves its body. -/
theorem IsServed.body {b : Blob} {response : Response} {bytes : List UInt8}
    (h : b.IsServed decoders (.response response) bytes) : response.body = bytes := by
  obtain ⟨_, hr, _, _, hbytes, _⟩ := h
  cases hr
  exact hbytes

end Blob

/-- A blob that was received to its end: the algorithm that its digest names, and all its bytes. -/
structure Receipt where
  blob : Blob
  algorithm : Digest.Algorithm
  bytes : List UInt8

namespace Receipt

/-- The digest of what was received. -/
def actual (r : Receipt) : String := Digest.ofBytes r.algorithm r.bytes

/-- What is wrong with what was received, if its digest is not the declared one. -/
def mismatch? (r : Receipt) : Option Mismatch :=
  if r.blob.digest = r.actual then none else some ⟨r.blob.what, r.blob.digest, r.actual⟩

end Receipt

/-- What is received of blobs that are asked for in order. The dialogue may end before a blob is asked
for, and it ends with an answer that does not serve its blob, or whose blob the machine refuses. -/
inductive Receives (decoders : Compression.Decoders) (s : Settings) (ref : Reference)
    (refused : Blob → Prop) : List Blob → Dialogue → List Receipt → Prop
  | unasked (blobs : List Blob) : Receives decoders s ref refused blobs [] []
  | ended {blob : Blob} {a : Answer} (blobs : List Blob) :
      (∀ bytes, ¬ blob.IsServed decoders a bytes) ∨ refused blob →
        Receives decoders s ref refused (blob :: blobs) [(blob.request s ref, a)] []
  | received {blob : Blob} {a : Answer} {bytes : List UInt8} {algorithm : Digest.Algorithm}
      {blobs : List Blob} {d : Dialogue} {receipts : List Receipt} :
      blob.IsServed decoders a bytes →
        Digest.algorithmOf (Digest.algorithmName blob.digest) = .ok algorithm →
          Receives decoders s ref refused blobs d receipts →
            Receives decoders s ref refused (blob :: blobs) ((blob.request s ref, a) :: d)
              (⟨blob, algorithm, bytes⟩ :: receipts)

namespace Receives

variable {refused refused' : Blob → Prop} {blobs more : List Blob} {d d' : Dialogue}
  {receipts receipts' : List Receipt}

theorem of_imp (hr : ∀ b, refused b → refused' b)
    (h : Receives decoders s ref refused blobs d receipts) :
    Receives decoders s ref refused' blobs d receipts := by
  induction h with
  | unasked blobs => exact .unasked blobs
  | ended blobs hend => exact .ended blobs (hend.imp_right (hr _))
  | received hserved halgorithm _ ih => exact .received hserved halgorithm ih

/-- There may be more blobs that are not asked for. -/
theorem of_append (h : Receives decoders s ref refused blobs d receipts) :
    Receives decoders s ref refused (blobs ++ more) d receipts := by
  induction h with
  | unasked blobs => exact .unasked _
  | ended blobs hend => exact .ended _ hend
  | received hserved halgorithm _ ih => exact .received hserved halgorithm ih

/-- When all blobs were received, more may follow. -/
theorem append (h : Receives decoders s ref refused blobs d receipts)
    (hall : receipts.length = blobs.length)
    (h' : Receives decoders s ref refused more d' receipts') :
    Receives decoders s ref refused (blobs ++ more) (d ++ d') (receipts ++ receipts') := by
  induction h with
  | unasked blobs =>
      rw [List.length_eq_zero_iff.1 hall.symm]
      exact h'
  | ended blobs _ => exact absurd hall (Nat.succ_ne_zero _).symm
  | received hserved halgorithm _ ih =>
      exact .received hserved halgorithm (ih (Nat.succ.inj hall))

end Receives

/-! ## Programs that check what they receive -/

/-- A run has failed, and the machine has refused what goes where the blob goes. -/
def Refuses (run : Except Failure α × World) (b : Blob) : Prop :=
  (∃ e, run.1 = .error e) ∧ b.use.IsRefused run.2

/-- A program heeds the policy, and the mismatches that are found are those of the blobs that were
received. If it comes to its end, these are all. -/
def Checks (decoders : Compression.Decoders) (s : Settings) (ref : Reference)
    (x : IntegrityPolicy → Exchange α) (blobs : List Blob) (w : World) : Prop :=
  ∃ d receipts, Heeds x w d (receipts.filterMap Receipt.mismatch?) ∧
    Receives decoders s ref (Refuses (x .warn w)) blobs d receipts ∧
    ∀ a, (x .warn w).1 = .ok a → receipts.length = blobs.length

theorem checks_of {x : IntegrityPolicy → Exchange α} {blobs : List Blob} {r : Except Failure α}
    (d : Dialogue) (receipts : List Receipt) (hrun : x .warn w = (r, w'))
    (hheeds : Heeds x w d (receipts.filterMap Receipt.mismatch?))
    (hreceives : Receives decoders s ref (Refuses (r, w')) blobs d receipts)
    (hall : ∀ a, r = .ok a → receipts.length = blobs.length) : Checks decoders s ref x blobs w := by
  refine ⟨d, receipts, hheeds, ?_, ?_⟩
  · rwa [hrun]
  · rwa [hrun]

/-- A program that neither downloads nor looks at the policy. -/
theorem checks_steady {x : Exchange α} (hx : Keeps steady x) :
    Checks decoders s ref (fun _ => x) [] w :=
  ⟨[], [], heeds_of_talk (hx w).1 (hx w).2, .unasked [], fun _ _ => rfl⟩

theorem Checks.bind {x : IntegrityPolicy → Exchange α} {f : IntegrityPolicy → α → Exchange β}
    {blobs more : List Blob} (hx : Checks decoders s ref x blobs w)
    (hf : ∀ a w₁, x .warn w = (.ok a, w₁) → Checks decoders s ref (fun p => f p a) more w₁) :
    Checks decoders s ref (fun p => x p >>= f p) (blobs ++ more) w := by
  obtain ⟨d, receipts, hheeds, hreceives, hall⟩ := hx
  rcases hrun : x .warn w with ⟨e | a, w₁⟩
  · rw [hrun] at hreceives
    refine checks_of d receipts (bind_error hrun) (hheeds.bind_error hrun)
      (hreceives.of_append.of_imp fun _ hb => ⟨⟨e, rfl⟩, hb.2⟩) nofun
  · obtain ⟨d', receipts', hheeds', hreceives', hall'⟩ := hf a w₁ hrun
    have hlength := hall a (by rw [hrun])
    -- the first part was not refused anything
    have hfirst : ∀ b, ¬ Refuses (x .warn w) b := by
      rintro b ⟨⟨e, he⟩, _⟩
      rw [hrun] at he
      exact absurd he nofun
    refine checks_of (d ++ d') (receipts ++ receipts') (bind_run hrun) ?_
      ((hreceives.of_imp fun b hb => absurd hb (hfirst b)).append hlength hreceives') fun b hb => ?_
    · rw [List.filterMap_append]
      exact hheeds.bind_ok hrun hheeds'
    · rw [List.length_append, List.length_append, hlength, hall' b hb]

section

variable {x : IntegrityPolicy → Exchange α} {blobs : List Blob}

/-- What comes before without a word. -/
theorem Checks.after {y : Exchange β} {f : IntegrityPolicy → β → Exchange α} (hy : Keeps steady y)
    (hf : ∀ b v v', y v = (.ok b, v') → Checks decoders s ref (fun p => f p b) blobs v') :
    Checks decoders s ref (fun p => y >>= f p) blobs w :=
  (checks_steady hy).bind fun b v' hrun => hf b w v' hrun

/-- What follows without a word. -/
theorem Checks.before {f : α → Exchange β} (hx : Checks decoders s ref x blobs w)
    (hf : ∀ a, Keeps steady (f a)) : Checks decoders s ref (fun p => x p >>= f) blobs w := by
  have := hx.bind (f := fun _ => f) fun a _ _ => checks_steady (hf a)
  rwa [List.append_nil] at this

/-- A program that comes to what another one comes to, up to what it fails with, and heeds the policy
as that does. -/
theorem Checks.follow {y : IntegrityPolicy → Exchange α} (hx : Checks decoders s ref x blobs w)
    (hy : ∀ {d found}, Heeds x w d found → Heeds y w d found)
    (hok : ∀ {a}, (y .warn w).1 = .ok a → ∃ a', (x .warn w).1 = .ok a')
    (hrefuses : ∀ {b}, Refuses (x .warn w) b → Refuses (y .warn w) b) :
    Checks decoders s ref y blobs w := by
  obtain ⟨d, receipts, hheeds, hreceives, hall⟩ := hx
  refine ⟨d, receipts, hy hheeds, hreceives.of_imp fun _ => hrefuses, fun a ha => ?_⟩
  obtain ⟨a', ha'⟩ := hok ha
  exact hall a' ha'

/-- What is said at the end of a run does not touch the machine. -/
theorem Use.isRefused_note {u : Use} {v : World} (h : u.IsRefused v) (e : Event) :
    u.IsRefused (v.note e) := by
  cases u <;> exact h

theorem Checks.warnOnFailure {source : LogSource} {message : String → String}
    (hs : source ≠ .integrity) (hx : Checks decoders s ref x blobs w) :
    Checks decoders s ref (fun p => warnOnFailure source message (x p)) blobs w := by
  rcases hwarned : Exchange.warnOnFailure source message (x .warn) w with ⟨r, w'⟩
  obtain ⟨w₁, hrun, _, hnoted⟩ := warnOnFailure_cases hwarned
  refine hx.follow (fun h => h.warnOnFailure hs) (fun {a} ha => ⟨a, ?_⟩) fun {b} hb => ?_
  · rw [hwarned] at ha
    rwa [hrun]
  · rw [hrun] at hb
    rw [hwarned]
    refine ⟨hb.1, ?_⟩
    rcases hnoted with rfl | ⟨text, rfl⟩
    · exact hb.2
    · exact Use.isRefused_note hb.2 _

theorem Checks.mapFailure {g : Failure → Failure} (hg : ∀ m : Mismatch, g m.failure = m.failure)
    (hx : Checks decoders s ref x blobs w) :
    Checks decoders s ref (fun p => mapFailure (x p) g) blobs w := by
  have hrun : Exchange.mapFailure (x .warn) g w = ((x .warn w).1.mapError g, (x .warn w).2) := by
    rw [Exchange.mapFailure, tryCatch_run]
    rcases x .warn w with ⟨e | a, w'⟩ <;> rfl
  refine hx.follow (fun h => h.mapFailure hg) (fun {a} ha => ?_) fun {b} hb => ?_
  · rw [hrun] at ha
    exact ⟨a, mapError_eq_ok.1 ha⟩
  · obtain ⟨⟨e, he⟩, hb⟩ := hb
    show Refuses (Exchange.mapFailure (x .warn) g w) b
    rw [hrun, he]
    exact ⟨⟨g e, rfl⟩, hb⟩

theorem Checks.withWorkDirectory {beginning : String} {z : IntegrityPolicy → Archive.Path → Exchange α}
    (hz : ∀ work v, Checks decoders s ref (fun p => z p work) blobs v) :
    Checks decoders s ref (fun p => withWorkDirectory beginning (z p)) blobs w := by
  refine Checks.after (fun v => steady.refl v) fun v _ w₁ _ => ?_
  refine Checks.after (steady_storing.keeps_newDirectory _ _) fun work _ w₂ _ => ?_
  refine (hz work w₂).follow (fun h => h.withCleanup (fun v => .of_eq rfl rfl rfl)
    fun v => .of_eq rfl) (fun ha => ⟨_, ha⟩) fun {b} hb => ⟨hb.1, ?_⟩
  obtain ⟨_, hb⟩ := hb
  cases hu : b.use with
  | _ => rw [hu] at hb; exact hb

end

/-! ## Checks of what was received -/

theorem checkDigest_warn (what expected actual : String) (w : World) :
    ∃ b w', checkDigest .warn what expected actual w = (.ok b, w') := by
  unfold checkDigest
  split
  · exact ⟨_, _, rfl⟩
  · exact ⟨_, _, rfl⟩

/-- **A check finds the mismatch that there is.** -/
theorem heeds_checkDigest (r : Receipt) (w : World) :
    Heeds (fun p => checkDigest p r.blob.what r.blob.digest r.actual) w []
      ([r].filterMap Receipt.mismatch?) := by
  by_cases h : r.blob.digest = r.actual
  · have hfound : [r].filterMap Receipt.mismatch? = [] := by simp [Receipt.mismatch?, h]
    have hpure : ∀ p, checkDigest p r.blob.what r.blob.digest r.actual = pure true :=
      fun p => if_pos h
    rw [hfound, funext hpure]
    exact heeds_of_talk (.refl w) (.refl w)
  · -- the run that warns goes on after the alarm, and the strict one ends without it
    have hfound : [r].filterMap Receipt.mismatch? = [⟨r.blob.what, r.blob.digest, r.actual⟩] := by
      simp [Receipt.mismatch?, h]
    have hwarn : checkDigest .warn r.blob.what r.blob.digest r.actual w = (.ok false, w.note
        (.logged .integrity .warning (Mismatch.text ⟨r.blob.what, r.blob.digest, r.actual⟩))) := by
      rw [checkDigest, if_neg h]
      rfl
    have hstrict : checkDigest .strict r.blob.what r.blob.digest r.actual w =
        (.error (.mismatch r.blob.what r.blob.digest r.actual), w) := by
      rw [checkDigest, if_neg h]
      rfl
    rw [hfound]
    refine ⟨?_, ?_, nofun, fun m later hm => ?_⟩
    · show Talk w [] (checkDigest .warn _ _ _ w).2
      rw [hwarn]
      exact .note w rfl
    · show Alarms w _ (checkDigest .warn _ _ _ w).2
      rw [hwarn]
      exact .note w _
    · cases hm
      show (checkDigest .strict _ _ _ w).1 = _ ∧ ∃ d', _ ∧ Talk w d' (checkDigest .strict _ _ _ w).2
      rw [hstrict]
      exact ⟨rfl, [], List.prefix_refl _, .refl w⟩

/-- How a run ends of a program that downloads a blob: it has received the blob, and then what it gives
has a digest of that, or it has failed before. -/
inductive Downloads (decoders : Compression.Decoders) (s : Settings) (ref : Reference) (blob : Blob)
    (actual : β → String) (w : World) : Except Failure β → World → Prop
  | unasked {e : Failure} {w' : World} : Talk w [] w' → Alarms w [] w' →
      Downloads decoders s ref blob actual w (.error e) w'
  | ended {a : Answer} {e : Failure} {w' : World} : Talk w [(blob.request s ref, a)] w' →
      Alarms w [] w' → (∀ bytes, ¬ blob.IsServed decoders a bytes) ∨ blob.use.IsRefused w' →
        Downloads decoders s ref blob actual w (.error e) w'
  | received {a : Answer} {v : β} {bytes : List UInt8} {algorithm : Digest.Algorithm} {w' : World} :
      Talk w [(blob.request s ref, a)] w' → Alarms w [] w' → blob.IsServed decoders a bytes →
        Digest.algorithmOf (Digest.algorithmName blob.digest) = .ok algorithm →
          actual v = Digest.ofBytes algorithm bytes →
            Downloads decoders s ref blob actual w (.ok v) w'

/-- **A blob that is downloaded and then checked** is one more blob of the program. -/
theorem checks_download {x : Exchange β} (blob : Blob) {actual : β → String}
    {f : IntegrityPolicy → β → Bool → Exchange α} {more : List Blob}
    (hx : ∀ {r w'}, x w = (r, w') → Downloads decoders s ref blob actual w r w')
    (hf : ∀ v b w₁, Checks decoders s ref (fun p => f p v b) more w₁) :
    Checks decoders s ref
      (fun p => x >>= fun v => checkDigest p blob.what blob.digest (actual v) >>= f p v)
      (blob :: more) w := by
  rcases hrun : x w with ⟨r, w'⟩
  have htalk : ∀ {d}, Talk w d w' → Alarms w [] w' → Heeds (fun _ => x) w d [] := by
    intro d ht ha
    refine heeds_of_talk ?_ ?_
    · rwa [hrun]
    · rwa [hrun]
  cases hx hrun with
  | unasked ht ha =>
      exact checks_of _ [] (bind_error hrun) ((htalk ht ha).bind_error hrun) (.unasked _)
        nofun
  | ended ht ha hend =>
      exact checks_of _ [] (bind_error hrun) ((htalk ht ha).bind_error hrun)
        (.ended _ (hend.imp_right fun hu => ⟨⟨_, rfl⟩, hu⟩)) nofun
  | @received a v bytes algorithm _ ht ha hserved halgorithm hactual =>
      obtain ⟨b, w₂, hcheck⟩ := checkDigest_warn blob.what blob.digest (actual v) w'
      obtain ⟨d, receipts, hheeds, hreceives, hall⟩ := hf v b w₂
      have hfound := heeds_checkDigest ⟨blob, algorithm, bytes⟩ w'
      rw [Receipt.actual, ← hactual] at hfound
      refine checks_of ((blob.request s ref, a) :: d) (⟨blob, algorithm, bytes⟩ :: receipts)
        ((bind_run hrun).trans (bind_run hcheck)) ?_ (.received hserved halgorithm hreceives)
        fun a hok => congrArg Nat.succ (hall a hok)
      rw [← List.singleton_append (l := receipts), List.filterMap_append]
      exact (htalk ht ha).bind_ok hrun (hfound.bind_ok hcheck hheeds)

end ImageTransfer.Transfer
