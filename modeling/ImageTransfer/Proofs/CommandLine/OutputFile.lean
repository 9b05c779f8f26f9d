import ImageTransfer.CommandLine.Report
import ImageTransfer.Compression.Decoders
import ImageTransfer.Proofs.Transfer.ImageExport
import ImageTransfer.Proofs.Transfer.Written

/-!
# The file that a command writes to

A command that writes to a file is to leave the whole of what it was asked for, or no file. The
first is so whenever it succeeds (`Delivered`). The second is so when it fails with something that is
reported, since the report takes the file away. A failure that is not reported ends the program
before that, and the file stays: empty for an export, which fails that way only before it writes,
and with a beginning of the blob for a pull (`Abandoned`).

Which failures these are follows from the kinds that operations fail with at all: of a pull it is a
failure of the machine, and of an export that, or a document that nobody expects.
-/

namespace ImageTransfer.CommandLine

open Exchange Registry Transfer

variable {decoders : Compression.Decoders} {s : Settings} {w w' : World}

/-! ## What may be in the file -/

/-- What a command has written when it has come to its end, by what it was served: an archive of the
whole image, or the whole blob. -/
inductive Delivered (decoders : Compression.Decoders) (s : Settings) :
    Command → Dialogue → List UInt8 → Prop
  | archive {image name : String} {path : Option String} {ref : Reference} {m : Manifest}
      {a : Answer} {d : Dialogue} {config : Json.Members} {contents : List (List UInt8)}
      {archive bytes index : List UInt8} {exported : Exported} :
      Reference.parse image = .ok ref → ref.commonName = some name → a.Serves m →
        ServesImage decoders s ref m config contents d → exported = exportedOf name contents bytes →
          ImageConfig.bytes (ImageConfig.withDiffIds config exported.diffIds) = .ok bytes →
            HoldsImage archive contents bytes index →
              Json.readDocument index = .ok (.array [exported.entry.value]) →
                Delivered decoders s (.archive image path) ((manifestRequest s ref, a) :: d) archive
  | blob {image digest : String} {path : Option String} {ref : Reference} {response : Response} :
      Reference.parse image = .ok ref → response.status = 200 → response.broken = none →
        Delivered decoders s (.pull image digest path)
          [(blobRequest s ref digest [], .response response)] response.body

/-- What a command has written when a failure of this kind has ended the program. -/
inductive Abandoned (s : Settings) : Command → FailureKind → Dialogue → List UInt8 → Prop
  | archive {image : String} {path : Option String} {kind : FailureKind} {d : Dialogue} :
      kind = .system ∨ kind = .nesting ∨ kind = .range →
        Abandoned s (.archive image path) kind d []
  | unserved {image digest : String} {path : Option String} {d : Dialogue} :
      Abandoned s (.pull image digest path) .system d []
  | blob {image digest : String} {path : Option String} {ref : Reference} {response : Response}
      {part : List UInt8} : Reference.parse image = .ok ref → response.status = 200 →
        part <+: response.body →
          Abandoned s (.pull image digest path) .system
            [(blobRequest s ref digest [], .response response)] part

/-- How a command ends that writes to a file, by what came of its work: with the file, without it
after a report, or with a file that is not what was asked for. -/
inductive Ends (decoders : Compression.Decoders) (s : Settings) (c : Command) (d : Dialogue)
    (written : List UInt8) : Except Failure Unit → Report → Prop
  | delivered {lines : List String} : Delivered decoders s c d written →
      Ends decoders s c d written (.ok ()) ⟨0, none, [], some written, lines⟩
  | removed {e : Failure} {lines : List String} : isReported e.kind = true →
      Ends decoders s c d written (.error e)
        ⟨1, none, [], none, lines ++ [errorLine (e.message.getD "")]⟩
  | abandoned {e : Failure} {lines : List String} : isReported e.kind = false →
      Abandoned s c e.kind d written →
        Ends decoders s c d written (.error e) ⟨1, some e, [], some written, lines⟩

/-! ## Commands are operations in a session -/

/-- An operation on an image by name: the name is read first, and then a session is open while the
operation runs. What follows it is only said. -/
theorem byName_cases {α : Type} {image : String} {f : Reference → Settings → Exchange α}
    {finish : α → Exchange Unit} {r : Except Failure Unit}
    (hfinish : ∀ a v, ∃ v', finish a v = (.ok (), v') ∧ Talk v [] v' ∧ Untouched v v')
    (h : ((ByName.reference image >>= fun ref => ByName.inSession (.ok s) (f ref)) >>= finish) w =
      (r, w')) :
    (∃ e, r = .error (.reference e)) ∨
      ∃ ref v w₁ w₂, Reference.parse image = .ok ref ∧ Talk w [] w₁ ∧ Untouched w w₁ ∧
        f ref s w₁ = (v, w₂) ∧ Talk w₂ [] w' ∧ Untouched w₂ w' ∧ r = v.map fun _ => () := by
  obtain ⟨v, w₁, hnamed, hr, ht₁, hu₁⟩ : ∃ v w₁,
      (ByName.reference image >>= fun ref => ByName.inSession (.ok s) (f ref)) w = (v, w₁) ∧
        r = (v.map fun _ => ()) ∧ Talk w₁ [] w' ∧ Untouched w₁ w' := by
    rcases bind_cases h with ⟨a, w₁, hnamed, hlast⟩ | ⟨e, hnamed, rfl⟩
    · obtain ⟨w₂, hdone, ht, hu⟩ := hfinish a w₁
      obtain ⟨rfl, rfl⟩ := Prod.mk.inj (hdone.symm.trans hlast)
      exact ⟨_, w₁, hnamed, rfl, ht, hu⟩
    · exact ⟨_, w', hnamed, rfl, .refl w', .refl w'⟩
  rcases bind_cases hnamed with ⟨ref, w₂, hread, hrun⟩ | ⟨e, hread, rfl⟩
  · obtain ⟨hparse, hsame⟩ := ofExcept_ok hread
    obtain ⟨w₃, w₄, ht₃, hu₃, hx, ht₄, hu₄⟩ := withSession_cases hrun
    rw [hsame] at ht₃ hu₃
    exact .inr ⟨ref, v, w₃, w₄, hparse, ht₃, hu₃, hx, ht₄.before ht₁, hu₄.trans hu₁, hr⟩
  · obtain ⟨-, ⟨_, -, hok⟩ | ⟨e', -, he⟩⟩ := ofExcept_cases hread
    · cases hok
    · cases he
      exact .inl ⟨e', hr⟩

/-! ## How each of the two commands ends -/

/-- The kinds of failures that a command reports. -/
theorem covers_reported {K : FailureKind → Prop} (hreported : ∀ k, isReported k = true → K k)
    (hsystem : K .system) : Covers K where
  registry hk := hreported _ (by rw [isReported, hk]; rfl)
  argument := hreported _ rfl
  system := hsystem

/-- An export that fails without a report is one that the machine has kept from its manifest, or
that was served a document which nobody expects. It has written nothing. -/
theorem archive_ends {image : String} {path : Option String} {r : Except Failure Unit}
    (hempty : w.sink.bytes = [])
    (h : (Command.archive image path).perform decoders s w = (r, w')) :
    (∃ e, r = .error e ∧ isReported e.kind = true) ∨
      (r = .ok () ∧ Delivered decoders s (.archive image path) (w.dialogue w') w'.sink.bytes) ∨
      ∃ e, r = .error e ∧ isReported e.kind = false ∧
        Abandoned s (.archive image path) e.kind (w.dialogue w') w'.sink.bytes := by
  have hfinish : ∀ (exported : Exported) v, ∃ v', (do
      let layers := Json.Value.shown (.array (exported.entry.layers.map .ofString))
      log .commandLine .debug s!"Archive config {exported.entry.config}, layers {layers}")
        v = (.ok (), v') ∧ Talk v [] v' ∧ Untouched v v' :=
    fun exported v => ⟨_, rfl, .note v rfl, .note v _⟩
  rcases byName_cases (f := fun ref s => exportImage decoders s none ref false) hfinish h with
    ⟨e, rfl⟩ | ⟨ref, v, w₁, w₂, hparse, ht₁, hu₁, hrun, ht₂, hu₂, rfl⟩
  · exact .inl ⟨_, rfl, rfl⟩
  cases v with
  | ok exported =>
      obtain ⟨name, m, a, d, config, contents, l, hname, hserves, ht, hd, hholds, hbytes, hindex,
        hexported, hsink⟩ := exportImage_talk hrun
      have hdialogue := ((ht₁.after ht).before ht₂).dialogue_eq
      have hwritten : w'.sink.bytes = Archive.Tar.archive l.tree := by
        rw [hu₂.sink, hsink, hu₁.sink, hempty, List.nil_append]
      have hread : Json.readDocument (contentOf l.index) = .ok (.array [exported.entry.value]) := by
        rw [hindex]
        exact Archive.readDocument_indexBytes _
      refine .inr (.inl ⟨rfl, ?_⟩)
      rw [hdialogue, hwritten]
      exact .archive hparse hname hserves hd hexported hbytes hholds.holdsImage hread
  | error e =>
      by_cases hreported : isReported e.kind = true
      · exact .inl ⟨e, rfl, hreported⟩
      refine .inr (.inr ⟨e, rfl, by simpa using hreported, ?_⟩)
      have hnothing : w'.sink.bytes = [] := by
        rcases exportImage_error hrun with hsink | harchive
        · rw [hu₂.sink, hsink, hu₁.sink, hempty]
        · rw [harchive] at hreported
          exact absurd rfl hreported
      have hcovers : CoversDocuments fun k =>
          isReported k = true ∨ k = .system ∨ k = .nesting ∨ k = .range :=
        { covers_reported (fun _ => .inl) (.inr (.inl rfl)) with
          nesting := .inr (.inr (.inl rfl))
          range := .inr (.inr (.inr rfl)) }
      rw [hnothing]
      exact .archive ((hcovers.failsIn_exportImage _ _ e hrun).resolve_left hreported)

/-- A pull that fails without a report has failed by the machine, with a beginning of the blob
written. -/
theorem pull_ends {image digest : String} {path : Option String} {r : Except Failure Unit}
    (hempty : w.sink.bytes = [])
    (h : (Command.pull image digest path).perform decoders s w = (r, w')) :
    (∃ e, r = .error e ∧ isReported e.kind = true) ∨
      (r = .ok () ∧ Delivered decoders s (.pull image digest path) (w.dialogue w') w'.sink.bytes) ∨
      ∃ e, r = .error e ∧ isReported e.kind = false ∧
        Abandoned s (.pull image digest path) e.kind (w.dialogue w') w'.sink.bytes := by
  have hfinish : ∀ (n : Nat) v, ∃ v', (pure () : Exchange Unit) v = (.ok (), v') ∧ Talk v [] v' ∧
      Untouched v v' := fun _ v => ⟨v, rfl, .refl v, .refl v⟩
  rcases byName_cases (f := fun ref s => pullBlob s none ref digest) hfinish h with
    ⟨e, rfl⟩ | ⟨ref, v, w₁, w₂, hparse, ht₁, hu₁, hrun, ht₂, hu₂, rfl⟩
  · exact .inl ⟨_, rfl, rfl⟩
  have hsink : ∀ part, w₂.sink.bytes = w₁.sink.bytes ++ part → w'.sink.bytes = part := by
    intro part hpart
    rw [hu₂.sink, hpart, hu₁.sink, hempty, List.nil_append]
  have hwritten := pullBlob_written hrun
  cases v with
  | ok n =>
      obtain ⟨-, _, he⟩ | ⟨response, part, ht, hstatus, hpart, -, hall⟩ := hwritten
      · cases he
      obtain ⟨hbroken, rfl⟩ := hall n rfl
      refine .inr (.inl ⟨rfl, ?_⟩)
      rw [((ht₁.after ht).before ht₂).dialogue_eq, hsink _ hpart]
      exact .blob hparse hstatus hbroken
  | error e =>
      by_cases hreported : isReported e.kind = true
      · exact .inl ⟨e, rfl, hreported⟩
      have hkind : e.kind = .system := by
        have hcovers : Covers fun k => isReported k = true ∨ k = .system :=
          covers_reported (fun _ => .inl) (.inr rfl)
        exact (hcovers.failsIn_pullBlob digest _ _ e hrun).resolve_left hreported
      refine .inr (.inr ⟨e, rfl, by simpa using hreported, ?_⟩)
      rw [hkind]
      obtain ⟨hsame, -⟩ | ⟨response, part, ht, hstatus, hpart, hprefix, -⟩ := hwritten
      · rw [hsink [] (by rw [hsame, List.append_nil])]
        exact .unserved
      · rw [((ht₁.after ht).before ht₂).dialogue_eq, hsink part hpart]
        exact .blob hparse hstatus hprefix

/-- A command that does not flood a terminal reports on what it has performed. -/
theorem run_of_perform {i : Invocation} {isTerminal : Bool} {r : Except Failure Unit}
    (hquiet : i.floodsTerminal isTerminal = false)
    (h : i.command.perform decoders i.settings w = (r, w')) :
    i.run decoders isTerminal none w = (i.reportOf r w', w') := by
  unfold Invocation.run
  rw [hquiet, if_neg Bool.false_ne_true]
  exact congrArg (fun done : Except Failure Unit × World => (i.reportOf done.1 done.2, done.2)) h

/-- A pull into a file. -/
def filePull : Invocation where
  settings := ⟨300, 4, 4, [], .strict, by decide, by decide, by decide⟩
  verbose := false
  command := .pull "registry.io/team/app" "sha256:00" (some "layer.tar")

/-- A registry serves a blob of which the machine loses all but the first bytes. -/
def breakingWorld : World :=
  .start [.response ⟨200, [], [0x68, 0x65, 0x6C], some ⟨.system, "[Errno 5] Input/output error"⟩⟩]
    ⟨.connection, ""⟩ .unlimited fun _ => ""

end ImageTransfer.CommandLine
