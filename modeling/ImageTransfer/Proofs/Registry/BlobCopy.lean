import ImageTransfer.Proofs.Exchange.Determined
import ImageTransfer.Proofs.Registry.Upload

/-!
# Copies of blobs

A copy of a blob that ends well has ended in one of three ways: the target had the blob, it mounted
the blob of its neighbour, or it accepted an upload of the whole blob. A copy that cannot end well
does not put anything, so the target never keeps a part of a blob under the digest of the whole.

A registry that refuses a mount may begin an upload instead, which is given up by a `DELETE`. Nothing
depends on what comes of that: a run of a copy is determined by what it hears, but for a fault of the
network there (`determined_copyBlob`).
-/

namespace ImageTransfer.Registry

open Exchange

variable {s : Settings} {source target : Reference} {digest : String} {w w' : World}

/-! ## Mounts -/

/-- A mount was refused, and the upload that the registry began in its place was given up, if there
was one. -/
def MountRefused (s : Settings) (source target : Reference) (digest : String) (d : Dialogue) : Prop :=
  ∃ response, response.status = 202 ∧
    (d = [(mountRequest s source target digest, .response response)] ∨
      ∃ place a, locate s target (response.header "Location") = .ok place ∧
        d = [(mountRequest s source target digest, .response response), (uploadDelete place, a)])

theorem MountRefused.putsNothing {d : Dialogue} (h : MountRefused s source target digest d) :
    PutsNothing d := by
  obtain ⟨response, _, rfl | ⟨place, a, _, rfl⟩⟩ := h
  · exact putsNothing_single nofun
  · exact (putsNothing_single (q := mountRequest s source target digest) nofun).append
      (putsNothing_single (q := uploadDelete place) nofun)

/-- To give up an upload takes one request, if the registry named a place for it. -/
theorem abandonUpload_cases {location : String} {r : Except Failure Unit}
    (h : abandonUpload s target digest location w = (r, w')) :
    w' = w ∨ ∃ place a, locate s target location = .ok place ∧
      Talk w [(uploadDelete place, a)] w' ∧ Untouched w w' := by
  unfold abandonUpload at h
  split at h
  · exact .inl (pure_inv h).2
  rcases bind_cases h with ⟨place, w₁, h₁, h₂⟩ | ⟨e, h₁, rfl⟩
  · obtain ⟨hl, rfl⟩ := ofExcept_ok h₁
    refine .inr ⟨place, ?_⟩
    rcases withResponseOr_cases h₂ with ⟨f, w₂, ht, hu, ho⟩ | ⟨response, w₂, w₃, ht, hu, hp, rfl⟩
    · rcases ho with ⟨_, hlog⟩ | ⟨_, _, rfl⟩
      · exact ⟨_, hl, ht.before ((silent_quiet.calm.keeps_log (by decide) _ _).rel hlog),
          hu.trans ((untouched_online.calm.keeps_log (by decide) _ _).rel hlog)⟩
      · exact ⟨_, hl, ht, hu⟩
    · obtain ⟨_, rfl⟩ := pure_inv hp
      exact ⟨_, hl, ht.before (.note _ rfl), hu.trans (.note _ _)⟩
  · exact .inl (ofExcept_cases h₁).1

/-- A mount succeeds, is refused, or fails; it never puts anything. -/
theorem mountBlob_cases {r : Except Failure Bool}
    (h : mountBlob s source target digest w = (r, w')) :
    ∃ d, Talk w d w' ∧ Untouched w w' ∧ PutsNothing d ∧
      ((∃ a, r = .ok true ∧ d = [(mountRequest s source target digest, a)] ∧
          a.status? = some 201) ∨
        (r = .ok false ∧ MountRefused s source target digest d) ∨ ∃ e, r = .error e) := by
  have hmount : ∀ a, PutsNothing [(mountRequest s source target digest, a)] := fun a =>
    putsNothing_single nofun
  obtain ⟨w₁, ht₁, hu₁, h⟩ := ensureSession_bind h
  rcases bind_cases h with ⟨location?, w₂, h₂, h₃⟩ | ⟨e, h₂, rfl⟩
  · rcases withResponse_cases h₂ with ⟨_, _, _, hf⟩ | ⟨response, w₃, w₄, ht₂, hu₂, hx, rfl⟩
    · exact absurd hf (by simp)
    replace ht₂ := (ht₁.after ht₂).before (.note _ (e := .released) rfl)
    replace hu₂ := hu₁.trans (hu₂.trans (Untouched.note _ .released))
    -- 201 is a mount; 202 has begun an upload in its place, which is given up; all else fails
    split at hx
    · rename_i hs
      obtain ⟨hok, rfl⟩ := pure_inv hx
      cases hok
      obtain ⟨rfl, rfl⟩ := pure_inv h₃
      exact ⟨_, ht₂, hu₂, hmount _, .inl ⟨.response response, rfl, rfl, congrArg some hs⟩⟩
    · rcases expect_bind hx with ⟨hs, hx⟩ | ⟨_, _, e, he⟩
      · obtain ⟨hok, rfl⟩ := pure_inv hx
        cases hok
        have hs : response.status = 202 := by simpa using hs
        rcases bind_cases h₃ with ⟨_, w₅, h₄, h₅⟩ | ⟨e, h₄, rfl⟩
        · obtain ⟨rfl, rfl⟩ := pure_inv h₅
          rcases abandonUpload_cases h₄ with rfl | ⟨place, a, hl, ht₃, hu₃⟩
          · exact ⟨_, ht₂, hu₂, hmount _, .inr (.inl ⟨rfl, response, hs, .inl rfl⟩)⟩
          · have hrefused : MountRefused s source target digest _ :=
              ⟨response, hs, .inr ⟨place, a, hl, rfl⟩⟩
            exact ⟨_, ht₂.trans ht₃, hu₂.trans hu₃, hrefused.putsNothing,
              .inr (.inl ⟨rfl, hrefused⟩)⟩
        · rcases abandonUpload_cases h₄ with rfl | ⟨place, a, hl, ht₃, hu₃⟩
          · exact ⟨_, ht₂, hu₂, hmount _, .inr (.inr ⟨e, rfl⟩)⟩
          · exact ⟨_, ht₂.trans ht₃, hu₂.trans hu₃,
              (hmount _).append (putsNothing_single nofun), .inr (.inr ⟨e, rfl⟩)⟩
      · exact absurd he (by simp)
  · rcases withResponse_cases h₂ with ⟨f, ht₂, hu₂, _⟩ | ⟨response, w₃, w₄, ht₂, hu₂, hx, rfl⟩
    · exact ⟨_, ht₁.after ht₂, hu₁.trans hu₂, hmount _, .inr (.inr ⟨e, rfl⟩)⟩
    · have hw : w₄ = w₃ := by
        split at hx
        · exact (pure_inv hx).2
        · rcases expect_bind hx with ⟨_, hx⟩ | ⟨_, hw, _⟩
          · exact (pure_inv hx).2
          · exact hw
      subst hw
      exact ⟨_, (ht₁.after ht₂).before (.note _ (e := .released) rfl),
        hu₁.trans (hu₂.trans (Untouched.note _ .released)), hmount _,
        .inr (.inr ⟨e, rfl⟩)⟩

/-- A mount is not asked for unless the repositories are two of one registry. -/
theorem mountNeighbour_cases {r : Except Failure Bool}
    (h : mountNeighbour s source target digest w = (r, w')) :
    ∃ d, Talk w d w' ∧ Untouched w w' ∧ PutsNothing d ∧
      ((source.registry = target.registry ∧ source.repository ≠ target.repository ∧
          ∃ a, r = .ok true ∧ d = [(mountRequest s source target digest, a)] ∧
            a.status? = some 201) ∨
        (r = .ok false ∧ (d = [] ∨ MountRefused s source target digest d)) ∨
        ∃ e, r = .error e) := by
  unfold mountNeighbour at h
  split at h
  · rename_i hsame
    obtain ⟨d, ht, hu, hp, hr⟩ := mountBlob_cases h
    refine ⟨d, ht, hu, hp, ?_⟩
    rcases hr with hmounted | ⟨hok, hrefused⟩ | he
    · exact .inl ⟨hsame.1, hsame.2, hmounted⟩
    · exact .inr (.inl ⟨hok, .inr hrefused⟩)
    · exact .inr (.inr he)
  · obtain ⟨rfl, rfl⟩ := pure_inv h
    exact ⟨[], .refl _, .refl _, putsNothing_nil, .inr (.inl ⟨rfl, .inl rfl⟩)⟩

/-! ## The ways in which a copy ends -/

/-- The ways in which a copy ends well. -/
inductive Ending
  /-- The target had the blob. -/
  | present
  /-- The target mounted the blob of another repository of its registry. -/
  | mounted
  /-- The whole blob was uploaded. -/
  | uploaded

/-- The target had not the blob, and a mount was not possible or was refused. -/
def Wanting (s : Settings) (source target : Reference) (digest : String) (d : Dialogue) : Prop :=
  ∃ a rest, d = (blobQuestion s target digest, a) :: rest ∧ a.status? ≠ some 200 ∧
    (rest = [] ∨ MountRefused s source target digest rest)

/-- What was said and heard in a copy that ended so. -/
def Ending.Concludes (s : Settings) (source target : Reference) (digest : String) (d : Dialogue) :
    Ending → Prop
  | present => ∃ a, d = [(blobQuestion s target digest, a)] ∧ a.status? = some 200
  | mounted => source.registry = target.registry ∧ source.repository ≠ target.repository ∧
      ∃ a b, d = [(blobQuestion s target digest, a), (mountRequest s source target digest, b)] ∧
        a.status? ≠ some 200 ∧ b.status? = some 201
  | uploaded => ∃ before up last a, d = before ++ up ++ [(uploadEnd last digest, a)] ∧
      Wanting s source target digest before ∧ Streamed s source target digest up last ∧
      (a.status? = some 201 ∨ a.status? = some 204)

theorem Wanting.putsNothing {d : Dialogue} (h : Wanting s source target digest d) :
    PutsNothing d := by
  obtain ⟨a, rest, rfl, _, rfl | hrest⟩ := h
  · exact putsNothing_single nofun
  · exact (putsNothing_single (q := blobQuestion s target digest) nofun).append hrest.putsNothing

/-- **A copy ends well in one of three ways, or it fails.** A copy that fails has put nothing, or the
registry has refused the end of an upload. -/
theorem copyBlob_cases {listens : Bool} {r : Except Failure Unit}
    (h : copyBlob s source target digest listens w = (r, w')) :
    ∃ d, Talk w d w' ∧ Untouched w w' ∧
      ((r = .ok () ∧ Ending.present.Concludes s source target digest d) ∨
        (r = .ok () ∧ Ending.mounted.Concludes s source target digest d) ∨
        (∃ before up last a, d = before ++ up ++ [(uploadEnd last digest, a)] ∧
          Wanting s source target digest before ∧ Streamed s source target digest up last ∧
          (r = .ok () ↔ a.status? = some 201 ∨ a.status? = some 204)) ∨
        (PutsNothing d ∧ ∃ e, r = .error e)) := by
  have hask : ∀ a, PutsNothing [(blobQuestion s target digest, a)] := fun a =>
    putsNothing_single nofun
  rcases bind_cases h with ⟨there, w₁, h₁, h⟩ | ⟨e, h₁, rfl⟩
  case inr =>
    obtain ⟨a, ht, hu, _⟩ := hasBlob_cases h₁
    exact ⟨_, ht, hu, .inr (.inr (.inr ⟨hask a, e, rfl⟩))⟩
  obtain ⟨a, ht₁, hu₁, hthere⟩ := hasBlob_cases h₁
  cases there with
  | true =>
      obtain ⟨rfl, rfl⟩ := note_inv h
      exact ⟨_, ht₁.before (.note _ rfl), hu₁.trans (.note _ _),
        .inl ⟨rfl, a, rfl, hthere.1 rfl⟩⟩
  | false =>
      have hs : a.status? ≠ some 200 := fun hs => absurd (hthere.2 hs) (by simp)
      rcases bind_cases h with ⟨mounted, w₂, h₂, h₃⟩ | ⟨e, h₂, rfl⟩
      case inr =>
        obtain ⟨d, ht₂, hu₂, hp, _⟩ := mountNeighbour_cases h₂
        exact ⟨_, ht₁.trans ht₂, hu₁.trans hu₂, .inr (.inr (.inr ⟨(hask a).append hp, e, rfl⟩))⟩
      obtain ⟨rest, ht₂, hu₂, _, hr⟩ := mountNeighbour_cases h₂
      replace ht₂ := ht₁.trans ht₂
      replace hu₂ := hu₁.trans hu₂
      rcases hr with ⟨hreg, hrepo, b, hok, rfl, hb⟩ | ⟨hok, hrefused⟩ | ⟨e, he⟩
      · cases hok
        obtain ⟨rfl, rfl⟩ := note_inv h₃
        exact ⟨_, ht₂.before (.note _ rfl), hu₂.trans (.note _ _),
          .inr (.inl ⟨rfl, hreg, hrepo, a, b, rfl, hs, hb⟩)⟩
      · cases hok
        have hwant : Wanting s source target digest ((blobQuestion s target digest, a) :: rest) :=
          ⟨a, rest, rfl, hs, hrefused⟩
        obtain ⟨v, hv, rfl⟩ := bind_calculates (fun _ => calculates_pure ()) h₃
        obtain ⟨d, ht₃, hu₃, hd⟩ := uploadFrom_cases hv
        refine ⟨_, ht₂.trans ht₃, hu₂.trans hu₃, ?_⟩
        -- either the end of the upload was asked for, or the copy failed before that
        rcases hd with ⟨up, last, b, rfl, hup, hb⟩ | ⟨hp, e, rfl⟩
        · refine .inr (.inr (.inl ⟨_, up, last, b, (List.append_assoc _ _ _).symm, hwant, hup, ?_⟩))
          rw [← hb]
          cases v with
          | ok v => exact ⟨fun _ => ⟨v, rfl⟩, fun _ => rfl⟩
          | error e => exact ⟨fun h => absurd h nofun, fun ⟨_, h⟩ => absurd h nofun⟩
        · exact .inr (.inr (.inr ⟨hwant.putsNothing.append hp, e, rfl⟩))
      · exact absurd he (by simp)

/-! ## What spoils a copy -/

/-- A response that came whole, as a success. -/
def Whole (a : Answer) : Prop :=
  ∃ response, a = .response response ∧ response.status = 200 ∧ response.broken = none

/-- An exchange after which the copy must not end an upload: the blob was got in part or not at all,
or a request that begins an upload or sends a chunk was not accepted. -/
def Spoils (p : Request × Answer) : Prop :=
  (p.1.method = .get ∧ ¬ Whole p.2) ∨
    ((p.1.method = .post ∨ p.1.method = .patch) ∧ p.2.status? ≠ some 202)

/-- A dialogue without an exchange that spoils a copy. -/
def Sound (d : Dialogue) : Prop := ∀ p ∈ d, ¬ Spoils p

theorem Sound.append {d₁ d₂ : Dialogue} (h₁ : Sound d₁) (h₂ : Sound d₂) : Sound (d₁ ++ d₂) := by
  intro p hp
  rcases List.mem_append.1 hp with hp | hp
  · exact h₁ p hp
  · exact h₂ p hp

theorem sound_single {p : Request × Answer} (h : ¬ Spoils p) : Sound [p] := by
  intro q hq
  rw [List.mem_singleton.1 hq]
  exact h

/-- Other requests spoil nothing. -/
theorem not_spoils_of_method {p : Request × Answer} (hg : p.1.method ≠ .get)
    (hp : p.1.method ≠ .post) (hc : p.1.method ≠ .patch) : ¬ Spoils p := by
  rintro (⟨h, _⟩ | ⟨h | h, _⟩)
  · exact hg h
  · exact hp h
  · exact hc h

/-- A request that was accepted spoils nothing. -/
theorem not_spoils_of_accepted {p : Request × Answer} (hm : p.1.method ≠ .get)
    (hs : p.2.status? = some 202) : ¬ Spoils p := by
  rintro (⟨h, _⟩ | ⟨_, h⟩)
  · exact hm h
  · exact h hs

theorem Wanting.sound {d : Dialogue} (h : Wanting s source target digest d) : Sound d := by
  have hask : ∀ a, ¬ Spoils (blobQuestion s target digest, a) := fun a =>
    not_spoils_of_method nofun nofun nofun
  have hmount : ∀ r : Response, r.status = 202 →
      ¬ Spoils (mountRequest s source target digest, .response r) := fun r hs =>
    not_spoils_of_accepted nofun (congrArg some hs)
  have hdelete : ∀ place a, ¬ Spoils (uploadDelete place, a) := fun place a =>
    not_spoils_of_method nofun nofun nofun
  obtain ⟨a, rest, rfl, _, hrest⟩ := h
  refine (sound_single (hask a)).append ?_
  rcases hrest with rfl | ⟨response, hs, rfl | ⟨place, b, _, rfl⟩⟩
  · exact fun p hp => absurd hp (by simp)
  · exact sound_single (hmount response hs)
  · exact (sound_single (hmount response hs)).append (sound_single (hdelete place b))

theorem Streamed.sound {d : Dialogue} {last : String}
    (h : Streamed s source target digest d last) : Sound d := by
  obtain ⟨a, place, blob, chunks, patches, rfl, ha, hs, hb, hsent, _⟩ := h
  have hstart : ¬ Spoils (uploadStart s target, a) := not_spoils_of_accepted nofun ha.status
  have hget : ¬ Spoils (blobRequest s source digest [], .response blob) := by
    rintro (⟨_, h⟩ | ⟨h | h, _⟩)
    · exact h ⟨blob, rfl, hs, hb⟩
    · exact absurd h nofun
    · exact absurd h nofun
  refine (sound_single hstart).append ((sound_single hget).append fun p hp => ?_)
  obtain ⟨hm, hp⟩ := hsent.accepted p hp
  exact not_spoils_of_accepted (by rw [hm]; decide) hp

/-! ## What a copy does not listen to -/

/-- The answers to a request that make no difference to a copy: a fault of the network or a response
when an upload is given up. -/
def Ignored (q : Request) (a b : Answer) : Prop :=
  b = a ∨ (q.method = .delete ∧ ∃ f response, a = .fault f ∧ f.isNetwork = true ∧
    b = .response response)

theorem eq_of_ignored {q : Request} (hq : q.method ≠ .delete) (a b : Answer) (h : Ignored q a b) :
    b = a := by
  rcases h with h | ⟨hd, _⟩
  · exact h
  · exact absurd hd hq

theorem determined_expect {R : Request → Answer → Answer → Prop} (response : Response)
    (what : String) (kind : FailureKind) (expected : List Int) :
    Determined R (expect response what kind expected) :=
  determined_calculates (calculates_expect response what kind expected)

theorem determined_hasBlob : Determined Ignored (hasBlob s target digest) :=
  determined_bind (determined_ensureSession _) fun _ =>
    determined_withResponseOr (eq_of_ignored nofun) (determined_pure _) fun _ => determined_pure _

/-- What the registry says when an upload is given up does not matter. -/
theorem determined_abandonUpload {location : String} :
    Determined Ignored (abandonUpload s target digest location) := by
  refine determined_ite (determined_pure _) (determined_bind (determined_ofExcept _ _) fun place => ?_)
  refine determined_send_bind (fun o => ?_) fun a b hab => ?_
  · cases o with
    | error f => exact determined_ite (determined_note rfl) (determined_throw _)
    | ok response => exact determined_releasing (determined_pure _)
  · rcases hab with rfl | ⟨_, f, response, rfl, hf, rfl⟩
    · exact .inl rfl
    · refine .inr ⟨?_, silent_quiet.keeps_releasing (keeps_pure ()), fun {w w' v r} h ha => ?_⟩
      · exact keeps_ite (silent_quiet.calm.keeps_log (by decide) _ _) (keeps_throw _)
      · change (if f.isNetwork = true then _ else _ : Exchange Unit) w = _ at h
        rw [if_pos hf] at h
        obtain ⟨rfl, rfl⟩ := note_inv h
        exact ⟨v.note .released, rfl, ha.note _ _⟩

theorem determined_mountNeighbour : Determined Ignored (mountNeighbour s source target digest) := by
  refine determined_ite (determined_bind (determined_ensureSession _) fun _ => ?_) (determined_pure _)
  refine determined_bind (determined_withResponse (eq_of_ignored nofun) fun response => ?_)
    fun location? => ?_
  · exact determined_ite (determined_pure _)
      (determined_bind (determined_expect _ _ _ _) fun _ => determined_pure _)
  · cases location? with
    | none => exact determined_pure _
    | some location => exact determined_bind determined_abandonUpload fun _ => determined_pure _

theorem determined_sendChunk {t : UploadTask} (state : UploadState) (chunk : List UInt8) :
    Determined Ignored (sendChunk s t state chunk) := by
  refine determined_bind (determined_withResponse (eq_of_ignored nofun) fun response => ?_)
    fun url => determined_bind (determined_ite (determined_note rfl) (determined_pure _)) fun _ =>
      determined_pure _
  exact determined_bind (determined_expect _ _ _ _) fun _ => determined_ofExcept _ _

theorem determined_checkAddress : Determined Ignored (checkAddress digest) :=
  determined_ite (determined_pure _) (determined_throw _)

theorem determined_relayBlob {t : UploadTask} (state : UploadState) :
    Determined Ignored (relayBlob s source t state) := by
  refine determined_bind ?_ fun got => ?_
  · refine determined_bind determined_checkAddress fun _ =>
      determined_bind (determined_ensureSession _) fun _ =>
        determined_bind (determined_note rfl) fun _ =>
          determined_withResponse (eq_of_ignored nofun) fun blob =>
            determined_bind (determined_expect _ _ _ _) fun _ =>
              determined_bind (determined_foldlM determined_sendChunk _ _) fun state' => ?_
    split
    · exact determined_pure _
    · exact determined_throw _
  · obtain ⟨state', rest?⟩ := got
    cases rest? with
    | none => exact determined_pure _
    | some rest => exact determined_sendChunk _ _

theorem determined_uploadFrom {listens : Bool} :
    Determined Ignored (uploadFrom s source target digest listens) := by
  refine determined_bind determined_checkAddress fun _ =>
    determined_bind (determined_ensureSession _) fun _ => determined_bind ?_ fun state =>
      determined_bind (determined_relayBlob state) fun state' => ?_
  · exact determined_withResponse (eq_of_ignored nofun) fun response =>
      determined_bind (determined_expect _ _ _ _) fun _ =>
        determined_bind (determined_ofExcept _ _) fun _ => determined_pure _
  · exact determined_withResponse (eq_of_ignored nofun) fun response =>
      determined_bind (determined_expect _ _ _ _) fun _ => determined_pure _

/-- **A copy is determined by what it hears, but for what comes of giving up an upload.** -/
theorem determined_copyBlob {listens : Bool} :
    Determined Ignored (copyBlob s source target digest listens) := by
  refine determined_bind determined_hasBlob fun there => determined_ite (determined_note rfl) ?_
  refine determined_bind determined_mountNeighbour fun mounted =>
    determined_ite (determined_note rfl) ?_
  exact determined_bind determined_uploadFrom fun _ => determined_pure _

/-! ## The contract of a copy -/

/-- The endings can be told apart by what was said. -/
theorem Ending.unique {e e' : Ending} {d : Dialogue} (h : e.Concludes s source target digest d)
    (h' : e'.Concludes s source target digest d) : e' = e := by
  -- the endings differ in how many requests there were: one, two, or four at least
  have hlen : ∀ {e : Ending}, e.Concludes s source target digest d →
      match e with
      | present => d.length = 1
      | mounted => d.length = 2
      | uploaded => 4 ≤ d.length := by
    intro e h
    cases e with
    | present =>
        obtain ⟨a, rfl, _⟩ := h
        rfl
    | mounted =>
        obtain ⟨_, _, a, b, rfl, _⟩ := h
        rfl
    | uploaded =>
        obtain ⟨before, up, last, a, rfl, ⟨b, rest, rfl, _⟩, ⟨c, _, _, _, patches, rfl, _⟩, _⟩ := h
        show 4 ≤ (_ : Dialogue).length
        simp only [List.length_append, List.length_cons, List.length_nil]
        omega
  have h₁ := hlen h
  have h₂ := hlen h'
  cases e <;> cases e' <;> first | rfl | (dsimp only at h₁ h₂; omega)

/-- **What a copy of a blob promises.** A copy that ends well has ended in exactly one way: the
target had the blob, or mounted it, or took an upload of the whole blob under its digest. A copy
whose source did not serve the whole blob, or whose target did not accept a part of the upload, puts
nothing. And if a fault of the network comes of giving up an upload, everything else is as if there
had been a response. -/
theorem copyBlob_allOrNothing (s : Settings) (source target : Reference) (digest : String)
    (listens : Bool) (w : World) :
    let run := copyBlob s source target digest listens w
    let d := w.dialogue run.2
    (run.1 = .ok () → ∃! e : Ending, e.Concludes s source target digest d) ∧
      ((∃ p ∈ d, Spoils p) → PutsNothing d) ∧
      ∀ i q f response, d[i]? = some (q, .fault f) → q.method = .delete → f.isNetwork = true →
        let again := copyBlob s source target digest listens (w.answering i (.response response))
        again.1 = run.1 ∧
          (w.answering i (.response response)).dialogue again.2 = d.set i (q, .response response) := by
  intro run d
  have hrun : copyBlob s source target digest listens w = (run.1, run.2) := rfl
  obtain ⟨d', ht, _, hd⟩ := copyBlob_cases hrun
  have hdd : d = d' := ht.dialogue_eq
  subst hdd
  refine ⟨fun hok => ?_, ?_, ?_⟩
  · rcases hd with ⟨_, h⟩ | ⟨_, h⟩ | ⟨before, up, last, a, hd, hwant, hup, hiff⟩ | ⟨_, e, he⟩
    · exact ⟨_, h, fun _ => Ending.unique h⟩
    · exact ⟨_, h, fun _ => Ending.unique h⟩
    · have h : Ending.uploaded.Concludes s source target digest d :=
        ⟨before, up, last, a, hd, hwant, hup, hiff.1 hok⟩
      exact ⟨_, h, fun _ => Ending.unique h⟩
    · exact absurd (hok.symm.trans he) nofun
  · rintro ⟨p, hp, hspoils⟩
    rcases hd with ⟨_, a, hd, _⟩ | ⟨_, _, _, a, b, hd, _⟩ |
      ⟨before, up, last, a, hd, hwant, hup, _⟩ | ⟨hnothing, _⟩
    · rw [hd]
      exact putsNothing_single nofun
    · rw [hd]
      exact (putsNothing_single (q := blobQuestion s target digest) nofun).append
        (putsNothing_single (q := mountRequest s source target digest) nofun)
    · -- an upload that was ended has nothing in it that spoils it
      have hend : ¬ Spoils (uploadEnd last digest, a) := not_spoils_of_method nofun nofun nofun
      rw [hd] at hp
      exact absurd hspoils (((hwant.sound.append hup.sound).append (sound_single hend)) p hp)
    · exact hnothing
  · intro i q f response hi hq hf again
    -- the other script differs in one answer, to which a copy does not listen
    have halike : Alike w (w.answering i (.response response)) := ⟨.of_eq rfl, rfl⟩
    have hsimilar : Similar Ignored (d.set i (q, .response response)) d :=
      similar_set (fun _ _ => .inl rfl) hi (.inr ⟨hq, f, response, rfl, hf, rfl⟩)
    have hreplies : replies w.silence (w.answering i (.response response)).answers d.length =
        (d.set i (q, .response response)).map Prod.snd := by
      rw [World.answering, replies_set, ← ht.heard, List.map_set]
    obtain ⟨v', hv, hvt, _⟩ := determined_copyBlob.follows hrun ht halike hsimilar hreplies
    have hagain : again = (run.1, v') := hv
    rw [hagain]
    exact ⟨rfl, hvt.dialogue_eq⟩

end ImageTransfer.Registry
