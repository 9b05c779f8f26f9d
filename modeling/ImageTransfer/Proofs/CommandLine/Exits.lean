import ImageTransfer.Proofs.CommandLine.OutputFile
import ImageTransfer.Proofs.Transfer.Unexpected

/-!
# How commands exit

A command exits with zero when it has done what it says, and otherwise it should say why and exit with
one. It does say why whenever it fails with something that is foreseen. What is left are failures that
no handler knows (`Escapes`): the machine fails, or a document is served that nobody expects, or the
summary of a configuration is asked for which has something else in place of members or a field that
is nested too deeply. These end the program as they are.
-/

namespace ImageTransfer.CommandLine

open Exchange Registry Transfer

variable {decoders : Compression.Decoders} {s : Settings} {w w' : World} {d : Dialogue}

/-- The image of which a command reads the manifest. -/
def Command.manifestOf? : Command → Option String
  | copy source _ => some source
  | archive image _ | inspect image _ => some image
  | pull .. => none

/-- A configuration has something else where a summary looks for members. -/
def HidesMembers (config : Json.Members) : Prop :=
  ∃ name ∈ ["config", "rootfs"], ∃ v, ImageConfig.member? config name = some v ∧
    v.isTruthy = true ∧ ∀ ms, v ≠ .object ms

/-- A field that the summary of a configuration would show is nested too deeply to be copied. -/
def NestsTooDeeply (config : Json.Members) : Prop :=
  ∃ shown, ImageConfig.summary config = .ok shown ∧
    ∃ field ∈ shown.fields, ImageConfig.copyLimit < field.2.depth

/-- Why a configuration has no summary that can be shown. -/
inductive Unsummarized (config : Json.Members) : ImageConfig.Error → Prop
  | members : HidesMembers config → Unsummarized config .notMembers
  | nesting : NestsTooDeeply config → Unsummarized config .tooNested

/-- Why a command of which this is the dialogue ends in a failure that is not reported. -/
inductive Escapes (s : Settings) (d : Dialogue) : Command → Failure → Prop
  | machine {c : Command} {f : Failure} : f.kind = .system → Escapes s d c f
  | document {c : Command} {f : Failure} {image : String} {ref : Reference} :
      c.manifestOf? = some image → Reference.parse image = .ok ref → Unexpected s ref d f.kind →
        Escapes s d c f
  | summary {image digest : String} {ref : Reference} {response : Response} {config : Json.Members}
      {problem : ImageConfig.Error} : Reference.parse image = .ok ref →
        (blobRequest s ref digest configMediaTypes, .response response) ∈ d →
          ImageConfig.ofBytes response.body = .ok config → Unsummarized config problem →
            Escapes s d (.inspect image true) (.config problem)

/-! ## What is reported is said in words -/

theorem documentMessage_of_isReported {e : Json.DocumentError} {malformed : FailureKind}
    {what : String} (h : isReported (Failure.kindOfDocument e malformed) = true) :
    ∃ message, Failure.documentMessage e what = some message := by
  cases e with
  | encoding e => exact ⟨_, rfl⟩
  | malformed problem position => exact ⟨_, rfl⟩
  | tooManyDigits digits => exact ⟨_, rfl⟩
  | tooDeep => cases h

/-- **Every failure that is reported has a message.** -/
theorem message_of_isReported {f : Failure} (h : isReported f.kind = true) :
    ∃ message, f.message = some message := by
  cases f with
  | manifest e =>
      cases e with
      | unreadable e => exact documentMessage_of_isReported h
      | boundlessSize => cases h
      | _ => exact ⟨_, rfl⟩
  | config e =>
      cases e with
      | unreadable e => exact documentMessage_of_isReported h
      | notMembers | tooNested => cases h
      | _ => exact ⟨_, rfl⟩
  | tooDeepTree => cases h
  | _ => exact ⟨_, rfl⟩

/-! ## What commands fail with -/

/-- The kinds that a command is prepared for, and those of the machine. -/
def Known (kind : FailureKind) : Prop := isReported kind = true ∨ kind = .system

theorem known_covers : Covers Known := covers_reported (fun _ => .inl) (.inr rfl)

theorem escapes_of_known {c : Command} {e : Failure} (h : Known e.kind) :
    isReported e.kind = true ∨ Escapes s d c e := h.imp id .machine

theorem escapes_writeLine {c : Command} {text : String} {v v' : World} {e : Failure}
    (h : writeLine text v = (.error e, v')) : isReported e.kind = true ∨ Escapes s d c e :=
  escapes_of_known (failsIn_write known_covers.system _ _ _ _ h)

/-- A name that is no reference is reported, and otherwise the reference is used. -/
theorem reference_bind {α : Type} {name : String} {f : Reference → Exchange α}
    {r : Except Failure α} (h : (ByName.reference name >>= f) w = (r, w')) :
    (∃ e, r = .error (.reference e)) ∨
      ∃ ref, Reference.parse name = .ok ref ∧ f ref w = (r, w') := by
  rcases bind_cases h with ⟨ref, w₁, hread, hnext⟩ | ⟨e, hread, rfl⟩
  · obtain ⟨hparse, rfl⟩ := ofExcept_ok hread
    exact .inr ⟨ref, hparse, hnext⟩
  · obtain ⟨-, ⟨_, -, hok⟩ | ⟨e', -, he⟩⟩ := ofExcept_cases hread
    · cases hok
    · cases he
      exact .inl ⟨e', rfl⟩

/-- A name that is no reference accounts for a failure, so it is left to see what is done with one. -/
theorem escapes_reference_bind {α : Type} {c : Command} {name : String}
    {f : Reference → Exchange α} {e : Failure} (h : (ByName.reference name >>= f) w = (.error e, w'))
    (hf : ∀ ref, Reference.parse name = .ok ref → f ref w = (.error e, w') →
      isReported e.kind = true ∨ Escapes s d c e) : isReported e.kind = true ∨ Escapes s d c e := by
  rcases reference_bind h with ⟨_, he⟩ | ⟨ref, hparse, hop⟩
  · cases he
    exact .inl rfl
  · exact hf ref hparse hop

/-- An operation in a session fails with what is reported, or with what its dialogue accounts for. -/
theorem escapes_of_blames {α : Type} {c : Command} {image : String} {ref : Reference}
    {x : Exchange α} {e : Failure} (hreads : c.manifestOf? = some image)
    (hparse : Reference.parse image = .ok ref) (hx : Blames Known s ref [] x)
    (h : withSession s.timeout x w = (.error e, w')) :
    isReported e.kind = true ∨ Escapes s (w.dialogue w') c e := by
  obtain ⟨w₁, w₂, ht₁, -, hrun, ht₂, -⟩ := withSession_cases h
  obtain ⟨d, ht, hblamed⟩ := hx _ _ _ hrun
  rw [((ht₁.after ht).before ht₂).dialogue_eq]
  rcases hblamed e rfl with hknown | hdocument
  · exact escapes_of_known hknown
  · exact .inr (.document hreads hparse hdocument)

theorem copy_error {source target : String} {e : Failure}
    (h : (Command.copy source target).perform decoders s w = (.error e, w')) :
    isReported e.kind = true ∨ Escapes s (w.dialogue w') (.copy source target) e := by
  rcases bind_cases h with ⟨digest, w₁, -, hlast⟩ | ⟨e', hop, he⟩
  · exact escapes_writeLine hlast
  cases he
  refine escapes_reference_bind hop fun ref hparse hop => ?_
  refine escapes_reference_bind hop fun _ _ hop => ?_
  exact escapes_of_blames rfl hparse (blames_copyImage known_covers) hop

theorem archive_error {image : String} {output : Option String} {e : Failure}
    (h : (Command.archive image output).perform decoders s w = (.error e, w')) :
    isReported e.kind = true ∨ Escapes s (w.dialogue w') (.archive image output) e := by
  rcases bind_cases h with ⟨exported, w₁, -, hlast⟩ | ⟨e', hop, he⟩
  · cases (note_inv hlast).1
  cases he
  refine escapes_reference_bind hop fun ref hparse hop => ?_
  exact escapes_of_blames rfl hparse (blames_exportImage known_covers) hop

/-- A pull reads no document. -/
theorem pull_error {image digest : String} {output : Option String} {e : Failure}
    (h : (Command.pull image digest output).perform decoders s w = (.error e, w')) :
    isReported e.kind = true ∨ Escapes s (w.dialogue w') (.pull image digest output) e := by
  rcases bind_cases h with ⟨size, w₁, -, hlast⟩ | ⟨e', hop, he⟩
  · cases (pure_inv hlast).1
  cases he
  refine escapes_reference_bind hop fun ref _ hop => ?_
  have hfails : FailsIn Known (withSession s.timeout (pullBlob s none ref digest)) :=
    failsIn_bind (failsIn_ensureSession _) fun _ =>
      failsIn_withCleanup (known_covers.failsIn_pullBlob digest)
  exact escapes_of_known (hfails _ _ _ hop)

/-! ## Summaries -/

theorem membersOf_error_iff {config : Json.Members} {name : String} {e : ImageConfig.Error} :
    ImageConfig.membersOf config name = .error e ↔ e = .notMembers ∧
      ∃ v, ImageConfig.member? config name = some v ∧ v.isTruthy = true ∧ ∀ ms, v ≠ .object ms := by
  unfold ImageConfig.membersOf
  constructor
  · intro h
    split at h
    · cases h
    · rename_i v hother hmember
      split at h
      · rename_i htruthy
        cases h
        exact ⟨rfl, v, hmember, htruthy, hother⟩
      · cases h
    · cases h
  · rintro ⟨rfl, v, hmember, htruthy, hother⟩
    rw [hmember]
    split
    · rename_i ms hobject
      exact absurd (Option.some.inj hobject) (hother ms)
    · rename_i w _ hw
      cases hw
      rw [if_pos htruthy]
    · rename_i hnone
      cases hnone

/-- **There is no summary exactly if something else is in place of members.** -/
theorem summary_error_iff {config : Json.Members} {e : ImageConfig.Error} :
    ImageConfig.summary config = .error e ↔ e = .notMembers ∧ HidesMembers config := by
  constructor
  · intro h
    rcases bind_eq_error.1 h with hruntime | ⟨_, -, hrest⟩
    · obtain ⟨he, hv⟩ := membersOf_error_iff.1 hruntime
      exact ⟨he, "config", by decide, hv⟩
    · rcases bind_eq_error.1 hrest with hrootfs | ⟨_, -, hdone⟩
      · obtain ⟨he, hv⟩ := membersOf_error_iff.1 hrootfs
        exact ⟨he, "rootfs", by decide, hv⟩
      · cases hdone
  · rintro ⟨rfl, name, hname, hv⟩
    have hfails := membersOf_error_iff.2 ⟨rfl, hv⟩
    refine bind_eq_error.2 ?_
    rcases hruntime : ImageConfig.membersOf config "config" with e | runtime
    · exact .inl (by rw [(membersOf_error_iff.1 hruntime).1])
    · -- what is wrong is not under the first name, so it is under the second
      refine .inr ⟨runtime, rfl, bind_eq_error.2 (.inl ?_)⟩
      rcases List.mem_cons.1 hname with rfl | hname
      · cases hruntime.symm.trans hfails
      · exact List.mem_singleton.1 hname ▸ hfails

example : ImageConfig.summary [(Text.ofString "config", .array [.integer 1])] = .error .notMembers :=
  rfl

/-- **A summary is not shown exactly if there is none or a field of it is nested too deeply.** -/
theorem shownConfig_error_iff {config : Json.Members} {e : ImageConfig.Error} :
    shownConfig true config = .error e ↔ Unsummarized config e := by
  rw [shownConfig, if_pos rfl]
  rcases hsummary : ImageConfig.summary config with problem | shown
  · obtain ⟨rfl, hhides⟩ := summary_error_iff.1 hsummary
    constructor
    · rintro ⟨⟩
      exact .members hhides
    · rintro (_ | ⟨shown, hshown, -⟩)
      · rfl
      · cases hsummary.symm.trans hshown
  · show shown.copied = .error e ↔ _
    unfold ImageConfig.Summary.copied
    have hdeep : shown.fields.any (fun field => ImageConfig.copyLimit < field.2.depth) = true ↔
        NestsTooDeeply config := by
      rw [List.any_eq_true]
      constructor
      · rintro ⟨field, hfield, hlimit⟩
        exact ⟨shown, hsummary, field, hfield, of_decide_eq_true hlimit⟩
      · rintro ⟨shown', hshown, field, hfield, hlimit⟩
        cases hsummary.symm.trans hshown
        exact ⟨field, hfield, decide_eq_true hlimit⟩
    constructor
    · intro h
      split at h
      · rename_i hany
        cases h
        exact .nesting (hdeep.1 hany)
      · cases h
    · rintro (hhides | hnests)
      · cases hsummary.symm.trans (summary_error_iff.2 ⟨rfl, hhides⟩)
      · exact if_pos (hdeep.2 hnests)

/-- The configuration that an inspection gives is in a blob that was served. -/
theorem inspectImage_served {ref : Reference} {policy : Option IntegrityPolicy}
    {config : Json.Members} (h : inspectImage s policy ref w = (.ok config, w')) :
    ∃ d digest response, Talk w d w' ∧
      (blobRequest s ref digest configMediaTypes, .response response) ∈ d ∧
      ImageConfig.ofBytes response.body = .ok config := by
  obtain ⟨m, w₁, hget, hfetch⟩ := bind_ok h
  obtain ⟨a, ht₁, -, -⟩ := getManifest_cases hget
  obtain ⟨descriptor, response, -, ht₂, -, -, -, hconfig⟩ := fetchConfig_ok hfetch
  exact ⟨_, descriptor.digest, response, ht₁.trans ht₂,
    List.mem_append_right _ (List.mem_singleton.2 rfl), hconfig⟩

theorem inspect_error {image : String} {summary : Bool} {e : Failure}
    (h : (Command.inspect image summary).perform decoders s w = (.error e, w')) :
    isReported e.kind = true ∨ Escapes s (w.dialogue w') (.inspect image summary) e := by
  rcases bind_cases h with ⟨config, w₁, hop, hlast⟩ | ⟨e', hop, he⟩
  · rcases bind_cases hlast with ⟨shown, w₂, -, hwrite⟩ | ⟨e', hshown, he⟩
    · exact escapes_writeLine hwrite
    cases he
    obtain ⟨rfl, ⟨_, -, hok⟩ | ⟨problem, hproblem, he⟩⟩ := ofExcept_cases hshown
    · cases hok
    cases he
    -- the configuration was got, so only a summary of it can have failed
    cases summary with
    | false => cases hproblem
    | true =>
        rcases reference_bind hop with ⟨_, he⟩ | ⟨ref, hparse, hop⟩
        · cases he
        obtain ⟨w₂, w₃, ht₂, -, hrun, ht₃, -⟩ := withSession_cases hop
        obtain ⟨d, digest, response, ht, hserved, hconfig⟩ := inspectImage_served hrun
        rw [((ht₂.after ht).before ht₃).dialogue_eq]
        exact .inr (.summary hparse hserved hconfig (shownConfig_error_iff.1 hproblem))
  cases he
  refine escapes_reference_bind hop fun ref hparse hop => ?_
  exact escapes_of_blames rfl hparse (blames_inspectImage known_covers) hop

/-- **What a command fails with** is reported, or what it was served accounts for it, or the machine
does. -/
theorem perform_error {c : Command} {e : Failure} (h : c.perform decoders s w = (.error e, w')) :
    isReported e.kind = true ∨ Escapes s (w.dialogue w') c e := by
  cases c with
  | copy source target => exact copy_error h
  | archive image output => exact archive_error h
  | inspect image summary => exact inspect_error h
  | pull image digest output => exact pull_error h

/-! ## How a run exits -/

theorem reportOf_reported {i : Invocation} {e : Failure} {message : String}
    (hreported : isReported e.kind = true) (hmessage : e.message = some message) :
    (i.reportOf (.error e) w).exitCode = 1 ∧ (i.reportOf (.error e) w).escaped = none ∧
      ∃ before, (i.reportOf (.error e) w).lines = before ++ [errorLine message] := by
  unfold Invocation.reportOf
  simp only [hreported, if_true, hmessage, Option.getD_some]
  exact ⟨trivial, trivial, _, rfl⟩

theorem reportOf_escaped {i : Invocation} {e : Failure} (hescapes : isReported e.kind = false) :
    (i.reportOf (.error e) w).exitCode = 1 ∧ (i.reportOf (.error e) w).escaped = some e := by
  unfold Invocation.reportOf
  simp only [hescapes, Bool.false_eq_true, if_false]
  exact ⟨trivial, trivial⟩

/-- An inspection. -/
def inspection : Invocation where
  settings := filePull.settings
  verbose := false
  command := .inspect "registry.io/team/app:v1" false

/-- The machine has no socket left for a request. -/
def exhaustedWorld : World :=
  .start [] ⟨.system, "[Errno 24] Too many open files"⟩ .unlimited fun _ => ""

end ImageTransfer.CommandLine
