import ImageTransfer.Proofs.Exchange.Disk
import ImageTransfer.Proofs.Exchange.Sink

/-!
# Runs that are decided by what they are served

A `Service` is what registries answer to each request. `Decided` says what a program makes of a
service: its result, and how many requests it takes to get there. The result is a function of the
service alone, so neither how a body is cut nor what directories are named has an influence on it.

A program that uses the disk is decided only on a machine that lets it: that refuses no change
(`World.IsWritable`), and has a name left for a new directory.
-/

namespace ImageTransfer

/-- What registries answer to a request that so many others came before. -/
abbrev Service := Nat → Request → Answer

namespace Service

variable {serve : Service}

/-- The answers of a dialogue are those of the service. The first request is number `n`. -/
def Answers (serve : Service) : Nat → Dialogue → Prop
  | _, [] => True
  | n, (q, a) :: d => a = serve n q ∧ serve.Answers (n + 1) d

theorem answers_append {n : Nat} {d₁ d₂ : Dialogue} :
    serve.Answers n (d₁ ++ d₂) ↔ serve.Answers n d₁ ∧ serve.Answers (n + d₁.length) d₂ := by
  induction d₁ generalizing n with
  | nil => exact ⟨fun h => ⟨trivial, h⟩, And.right⟩
  | cons p d₁ ih =>
      rw [List.cons_append, Answers, Answers, ih, and_assoc, List.length_cons,
        Nat.add_right_comm, Nat.add_assoc]

theorem answers_singleton {n : Nat} {q : Request} {a : Answer} :
    serve.Answers n [(q, a)] ↔ a = serve n q := and_iff_left trivial

end Service

namespace World

/-- The service that goes through the script of a world. -/
def service (w : World) : Service := fun n _ => (w.answers[n]?).getD (.fault w.silence)

/-- **What is heard in a world is what its script serves.** -/
theorem service_answers {w w' : World} {d : Dialogue} (h : Talk w d w') : w.service.Answers 0 d := by
  have hgo : ∀ (d : Dialogue) (n : Nat),
      d.map Prod.snd = replies w.silence (w.answers.drop n) d.length → w.service.Answers n d := by
    intro d
    induction d with
    | nil => exact fun _ _ => trivial
    | cons p d ih =>
        intro n hheard
        rw [List.map_cons, List.length_cons] at hheard
        have hnext : w.answers.drop (n + 1) = (w.answers.drop n).drop 1 := by rw [List.drop_drop]
        cases hscript : w.answers.drop n with
        | nil =>
            rw [hscript, List.drop_nil] at hnext
            rw [hscript] at hheard
            obtain ⟨ha, hrest⟩ := List.cons.inj hheard
            refine ⟨?_, ih (n + 1) (hnext ▸ hrest)⟩
            rw [ha, service, List.getElem?_eq_none (List.drop_eq_nil_iff.1 hscript)]
            rfl
        | cons a rest =>
            rw [hscript] at hnext hheard
            obtain ⟨ha, hrest⟩ := List.cons.inj hheard
            refine ⟨?_, ih (n + 1) (hnext ▸ hrest)⟩
            have hget : w.answers[n]? = some a := by
              rw [← List.head?_drop, hscript]
              rfl
            rw [ha, service, hget]
            rfl
  exact hgo d 0 h.heard

/-- The machine refuses no change of its disk. -/
def IsWritable (w : World) : Prop := ∀ n, w.refusal? n = none

/-- The machine refuses no change of its disk, and has one of a kind. -/
def Offers (p : Disk → Prop) (w : World) : Prop := w.IsWritable ∧ p w.disk

end World

namespace Exchange

variable {α β : Type} {p : Archive.Path} {w w' : World}

/-! ## Machines that refuse nothing -/

theorem changeDisk_writable (hw : w.IsWritable) (f : Disk → Disk) :
    changeDisk f w = (.ok (), { w with changes := w.changes + 1, disk := f w.disk }) := by
  rw [changeDisk_run, hw]

/-- A machine that refuses nothing stays one. -/
def writable : Frame where
  rel w w' := w.IsWritable → w'.IsWritable
  refl _ := id
  trans h₁ h₂ := h₂ ∘ h₁

theorem writable_storing : writable.Storing p where
  change _ w hw := by
    rw [changeDisk_writable hw]
    exact hw
  naming _ := id

theorem not_isDenied (hw : w.IsWritable) : ¬ w.IsDenied := by
  rintro ⟨n, _, hrefused⟩
  rw [hw n] at hrefused
  exact absurd hrefused (by decide)

section

variable {d : Disk} {writes : Array (List UInt8)} {modified : Int} {piece bytes : List UInt8}

theorem hasRoom_file (hd : d.has p = false) (hdisk : w.disk = d.append (.file p writes modified))
    (count : Nat) :
    hasRoom p count w =
      (.ok (decide (writes.toList.flatten.length + count ≤ Disk.fileLimit)), w) := by
  rw [← Disk.sizeOf_append_file hd writes modified, ← hdisk]
  rfl

/-- A file grows as long as there is room in it. -/
theorem appendFile_writable (hw : w.IsWritable) (hd : d.has p = false)
    (hdisk : w.disk = d.append (.file p writes modified))
    (hroom : writes.toList.flatten.length + piece.length ≤ Disk.fileLimit) :
    ∃ w', appendFile p piece w = (.ok (), w') ∧ w'.IsWritable := by
  unfold appendFile
  split
  · exact ⟨w, rfl, hw⟩
  · rw [bind_run (hasRoom_file hd hdisk _), decide_eq_true hroom]
    exact ⟨_, changeDisk_writable hw _, hw⟩

/-- What is said of a file that has grown too large. -/
def fileTooLarge : Failure := .system "[Errno 27] File too large"

theorem appendFile_full (hd : d.has p = false)
    (hdisk : w.disk = d.append (.file p writes modified)) (hfits : Fits writes)
    (hfull : ¬ writes.toList.flatten.length + piece.length ≤ Disk.fileLimit) :
    appendFile p piece w = (.error fileTooLarge, w) := by
  have hne : ¬ piece.isEmpty = true := by
    rw [List.isEmpty_iff]
    rintro rfl
    exact hfull hfits
  rw [appendFile, if_neg hne, bind_run (hasRoom_file hd hdisk _), decide_eq_false hfull]
  rfl

/-- What comes of storing a file. -/
def storeOutcome (bytes : List UInt8) : Except Failure Unit :=
  if bytes.length ≤ Disk.fileLimit then .ok () else .error fileTooLarge

theorem storeFile_writable {r : Except Failure Unit} (hw : w.IsWritable)
    (hfree : w.disk.has p = false) (h : storeFile p bytes modified w = (r, w')) :
    r = storeOutcome bytes ∧ w'.IsWritable := by
  unfold storeFile at h
  rw [bind_run (changeDisk_writable hw _), Disk.createFile_of_not_has hfree] at h
  generalize hv : { w with
    changes := w.changes + 1, disk := w.disk.append (.file p #[] 0) : World } = v at h
  have hdisk : v.disk = w.disk.append (.file p #[] 0) := hv ▸ rfl
  have hwv : v.IsWritable := hv ▸ hw
  unfold storeOutcome
  split
  · rename_i hfits
    obtain ⟨w₂, happend, hw₂⟩ := appendFile_writable hwv hfree hdisk (by simpa using hfits)
    rw [bind_run happend, changeDisk_writable hw₂] at h
    obtain ⟨rfl, rfl⟩ := Prod.mk.inj h
    exact ⟨rfl, hw₂⟩
  · rename_i hlarge
    rw [bind_error (appendFile_full hfree hdisk (Nat.zero_le _) (by simpa using hlarge))] at h
    obtain ⟨rfl, rfl⟩ := Prod.mk.inj h
    exact ⟨rfl, hwv⟩

end

/-- A new directory is made if a name for it is left. -/
theorem newDirectory_writable {parent : Archive.Path} {beginning : String} {attempts : Nat}
    (hw : w.IsWritable) (hfree : ∃ n < attempts,
      w.disk.has (parent ++ [beginning ++ w.names (w.named + n)]) = false) :
    ∃ path w', newDirectory parent beginning attempts w = (.ok path, w') ∧ w'.IsWritable := by
  induction attempts generalizing w with
  | zero =>
      obtain ⟨n, hn, _⟩ := hfree
      exact absurd hn (Nat.not_lt_zero n)
  | succ attempts ih =>
      obtain ⟨v, hnext, hv, hdisk, hnames, hnamed⟩ : ∃ v : World,
          nextName w = (.ok (w.names w.named), v) ∧ v.IsWritable ∧ v.disk = w.disk ∧
            v.names = w.names ∧ v.named = w.named + 1 :=
        ⟨{ w with named := w.named + 1 }, rfl, hw, rfl, rfl, rfl⟩
      have hstored : ∀ path : Archive.Path, isStored path v = (.ok (w.disk.has path), v) :=
        fun path => hdisk ▸ rfl
      rw [newDirectory, bind_run hnext, bind_run (hstored _)]
      cases htaken : w.disk.has (parent ++ [beginning ++ w.names w.named]) with
      | true =>
          -- the name is taken, so it is a later one that is free
          obtain ⟨n, hn, hfree⟩ := hfree
          cases n with
          | zero => exact absurd (htaken.symm.trans hfree) nofun
          | succ n =>
              refine ih hv ⟨n, Nat.lt_of_succ_lt_succ hn, ?_⟩
              rw [hdisk, hnames, hnamed, Nat.add_assoc, Nat.add_comm 1]
              exact hfree
      | false =>
          have hmake := changeDisk_writable hv
            (·.makeDirectory (parent ++ [beginning ++ w.names w.named]))
          exact ⟨_, _, bind_run hmake, hv⟩

/-- There is a directory to work in if a name for it is left. -/
theorem withWorkDirectory_writable {beginning : String} {x : Archive.Path → Exchange α}
    {r : Except Failure α} (hw : w.IsWritable) (hfree : ∃ n < nameAttempts,
      w.disk.has (w.temporary ++ [beginning ++ w.names (w.named + n)]) = false)
    (h : withWorkDirectory beginning x w = (r, w')) :
    ∃ work w₁ w₂, Private w w₁ ∧ w₁.IsWritable ∧ w.disk.has work = false ∧
      w₁.disk = w.disk.makeDirectory work ∧ x work w₁ = (r, w₂) ∧
      w' = { w₂ with disk := w₂.disk.remove work } := by
  obtain ⟨work, w₁, hnew, hw₁⟩ := newDirectory_writable hw hfree
  have hrun : withWorkDirectory beginning x w =
      withCleanup (x work) (fun w => { w with disk := w.disk.remove work }) w₁ := bind_run hnew
  obtain ⟨w₂, hx, rfl⟩ := withCleanup_inv (hrun ▸ h)
  obtain ⟨hp, ⟨name, _, rfl, hok, hnone, hd⟩ | ⟨⟨_, he⟩, _⟩⟩ := newDirectory_cases hnew
  · cases hok
    exact ⟨_, w₁, w₂, hp, hw₁, hnone, hd, hx, rfl⟩
  · exact absurd he nofun

/-! ## Programs -/

/-- In every world of one kind the program gives a value, says nothing, and leaves a world of another
kind behind. -/
def Succeeds (P : World → Prop) (x : Exchange α) (Q : α → World → Prop) : Prop :=
  ∀ w, P w → ∃ a w', x w = (.ok a, w') ∧ Talk w [] w' ∧ Q a w'

/-- What the program makes of a service in a world of one kind: its result, by the number of requests
before, and, if that is a value, how many more it has sent and what kind of world it leaves. -/
structure Decided (serve : Service) (P : World → Prop) (x : Exchange α) (count : Nat)
    (outcome : Nat → Except Failure α) (Q : α → World → Prop) : Prop where
  talks : Keeps talks x
  result : ∀ {w w' : World} {r : Except Failure α} {d : Dialogue} {n : Nat}, P w →
    x w = (r, w') → Talk w d w' → serve.Answers n d →
      r = outcome n ∧ ∀ a, r = .ok a → d.length = count ∧ Q a w'

/-- A kind of worlds that what a client does has no influence on. -/
def Lasting (P : World → Prop) : Prop := ∀ {w w' : World}, Untouched w w' → P w → P w'

theorem lasting_writable : Lasting World.IsWritable := by
  intro w w' hu hw
  rw [World.IsWritable, hu.refusals]
  exact hw

theorem lasting_offers {p : Disk → Prop} : Lasting (World.Offers p) := by
  rintro w w' hu ⟨hw, hp⟩
  refine ⟨lasting_writable hu hw, ?_⟩
  rw [hu.disk]
  exact hp

variable {serve : Service} {P : World → Prop} {Q : α → World → Prop} {R : β → World → Prop}
  {x : Exchange α} {f : α → Exchange β} {count more : Nat} {outcome : Nat → Except Failure α}

/-- A program is decided part by part. -/
theorem Decided.bind {next : α → Nat → Except Failure β}
    (hx : Decided serve P x count outcome Q)
    (hf : ∀ a, Decided serve (Q a) (f a) more (next a) R) :
    Decided serve P (x >>= f) (more + count)
      (fun n => outcome n >>= fun a => next a (n + count)) R where
  talks := keeps_bind hx.talks fun a => (hf a).talks
  result {w w' r d n} hP h ht hd := by
    rcases bind_cases h with ⟨a, w₁, h₁, h₂⟩ | ⟨e, h₁, rfl⟩
    · obtain ⟨d₁, ht₁⟩ := hx.talks.rel h₁
      obtain ⟨d₂, ht₂⟩ := (hf a).talks.rel h₂
      have hd₁₂ : d = d₁ ++ d₂ := by rw [← ht.dialogue_eq, (ht₁.trans ht₂).dialogue_eq]
      subst hd₁₂
      obtain ⟨hd₁, hd₂⟩ := Service.answers_append.1 hd
      obtain ⟨ho, hQ⟩ := hx.result hP h₁ ht₁ hd₁
      obtain ⟨hlen, hQ⟩ := hQ a rfl
      rw [hlen] at hd₂
      obtain ⟨hr, hR⟩ := (hf a).result hQ h₂ ht₂ hd₂
      refine ⟨?_, fun b hb => ?_⟩
      · rw [← ho]
        exact hr
      · obtain ⟨hlen', hR⟩ := hR b hb
        exact ⟨by rw [List.length_append, hlen, hlen', Nat.add_comm], hR⟩
    · obtain ⟨ho, _⟩ := hx.result hP h₁ ht hd
      exact ⟨by rw [← ho]; rfl, nofun⟩

/-- What a silent program gives may depend on the machine, if it makes no difference to the rest. -/
theorem Succeeds.bind {next : Nat → Except Failure β} (hx : Succeeds P x Q)
    (hs : Keeps silent x) (hf : ∀ a, Decided serve (Q a) (f a) more next R) :
    Decided serve P (x >>= f) more next R where
  talks := keeps_bind (fun w => ⟨[], hs w⟩) fun a => (hf a).talks
  result {w w' r d n} hP h ht hd := by
    obtain ⟨a, w₁, h₁, ht₁, hQ⟩ := hx w hP
    rw [bind_run h₁] at h
    obtain ⟨d₂, ht₂⟩ := (hf a).talks.rel h
    have hd₂ : d = d₂ := by rw [← ht.dialogue_eq, (ht₁.after ht₂).dialogue_eq]
    exact (hf a).result hQ h (hd₂ ▸ ht₂) hd

theorem Decided.of_imp {P' : World → Prop} (hx : Decided serve P x count outcome Q)
    (h : ∀ {w}, P' w → P w) : Decided serve P' x count outcome Q where
  talks := hx.talks
  result hP := hx.result (h hP)

theorem Decided.congr {outcome' : Nat → Except Failure α} (hx : Decided serve P x count outcome Q)
    (h : ∀ n, outcome n = outcome' n) : Decided serve P x count outcome' Q := by
  rwa [← funext h]

/-- What is known of the world after a value in another way comes in addition. -/
theorem Decided.and {Q' : α → World → Prop} (hx : Decided serve P x count outcome Q)
    (h : ∀ {w a w'}, P w → x w = (.ok a, w') → Q' a w') :
    Decided serve P x count outcome fun a w => Q a w ∧ Q' a w where
  talks := hx.talks
  result {w w' r d n} hP hrun ht hd := by
    obtain ⟨hr, hQ⟩ := hx.result hP hrun ht hd
    refine ⟨hr, fun a ha => ⟨(hQ a ha).1, (hQ a ha).2, ?_⟩⟩
    exact h hP (ha ▸ hrun)

/-- A silent program whose result is the same in all worlds of a kind. -/
theorem decided_silent {c : Except Failure α} (hs : Keeps silent x)
    (hx : ∀ {w r w'}, P w → x w = (r, w') → r = c ∧ ∀ a, r = .ok a → Q a w') :
    Decided serve P x 0 (fun _ => c) Q where
  talks w := ⟨[], hs w⟩
  result {w w' r d n} hP h ht _ := by
    obtain ⟨hr, hQ⟩ := hx hP h
    refine ⟨hr, fun a ha => ⟨?_, hQ a ha⟩⟩
    rw [← ht.dialogue_eq, (hs.rel h).dialogue_eq]
    rfl

theorem decided_calculates {c : Except Failure α} (hx : Calculates x c) :
    Decided serve P x 0 (fun _ => c) fun _ => P where
  talks := keeps_of_calculates hx
  result {w w' r d n} hP h ht _ := by
    rw [hx w] at h
    obtain ⟨rfl, rfl⟩ := Prod.mk.inj h
    refine ⟨rfl, fun _ _ => ⟨?_, hP⟩⟩
    rw [← ht.dialogue_eq, (Talk.refl w).dialogue_eq]
    rfl

theorem decided_ofExcept {ε : Type} (e : Except ε α) (failure : ε → Failure) :
    Decided serve P (ofExcept e failure) 0 (fun _ => e.mapError failure) fun _ => P :=
  decided_calculates (calculates_ofExcept e failure)

theorem decided_ofExcept_bind {ε γ : Type} {e : Except ε γ} {failure : ε → Failure}
    {f : γ → Exchange β} {next : γ → Nat → Except Failure β}
    (hf : ∀ c, Decided serve P (f c) more (next c) R) :
    Decided serve P (ofExcept e failure >>= f) more
      (fun n => e.mapError failure >>= fun c => next c n) R :=
  (decided_ofExcept e failure).bind hf

theorem decided_pure (a : α) :
    Decided serve P (pure a : Exchange α) 0 (fun _ => .ok a) fun _ => P :=
  decided_calculates (calculates_pure a)

/-- A file may be stored where there is nothing. -/
theorem decided_storeFile (bytes : List UInt8) (modified : Int) :
    Decided serve (World.Offers fun d => d.has p = false) (storeFile p bytes modified) 0
      (fun _ => storeOutcome bytes) fun _ => World.IsWritable :=
  decided_silent (silent_storing.keeps_storeFile (List.prefix_refl p) _ _) fun hw h =>
    let ⟨hr, hw'⟩ := storeFile_writable hw.1 hw.2 h
    ⟨hr, fun _ _ => hw'⟩

/-- What happens on the way without a request decides nothing. -/
theorem decided_note_bind {e : Event} {f : Unit → Exchange β} {next : Nat → Except Failure β}
    (hP : Lasting P) (he : e.request? = none) (hf : Decided serve P (f ()) more next R) :
    Decided serve P (note e >>= f) more next R :=
  Succeeds.bind (fun w hw => ⟨(), w.note e, rfl, .note w he, hP (.note w e) hw⟩)
    (fun w => .note w he) fun _ => hf

theorem decided_report_bind {listens : Bool} {current total : Int} {message : String}
    {f : Unit → Exchange β} {next : Nat → Except Failure β} (hP : Lasting P)
    (hf : Decided serve P (f ()) more next R) :
    Decided serve P (report listens current total message >>= f) more next R := by
  cases listens with
  | false => exact hf
  | true => exact decided_note_bind hP rfl hf

theorem Decided.warnOnFailure {source : LogSource} {message : String → String}
    (hx : Decided serve P x count outcome Q) :
    Decided serve P (warnOnFailure source message x) count outcome Q where
  talks := keeps_tryCatch hx.talks fun e => by
    split
    · exact keeps_bind (fun w => ⟨[], .note w rfl⟩) fun _ => keeps_throw e
    · exact keeps_throw e
  result {w w' r d n} hP h ht hd := by
    obtain ⟨w₁, h₁, hok, hwarn⟩ := warnOnFailure_cases h
    have ht₁ : Talk w₁ [] w' := by
      rcases hwarn with rfl | ⟨text, rfl⟩
      · exact .refl _
      · exact .note _ rfl
    obtain ⟨d₁, ht'⟩ := hx.talks.rel h₁
    have hd₁ : d = d₁ := by rw [← ht.dialogue_eq, (ht'.before ht₁).dialogue_eq]
    obtain ⟨hr, hQ⟩ := hx.result hP h₁ (hd₁ ▸ ht') hd
    refine ⟨hr, fun a ha => ?_⟩
    rw [hok ⟨a, ha⟩]
    exact hQ a ha

end Exchange

end ImageTransfer
