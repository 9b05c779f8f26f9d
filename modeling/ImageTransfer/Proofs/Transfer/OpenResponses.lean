import ImageTransfer.Proofs.Exchange.Responses
import ImageTransfer.Proofs.Registry.Upload
import ImageTransfer.Proofs.Transfer.Staging
import ImageTransfer.Transfer.Copy
import ImageTransfer.Transfer.Pull

/-!
# No response is left open

A call of a client opens responses one after the other, but for a blob that is sent on while it is
read: its response is open while each chunk has one of its own. A layer that is downloaded goes into a
file meanwhile, and a blob that is pulled goes to the sink, which takes no response. So two is the
most that are ever open, and when a call is over, none is, wherever it has failed.

A call keeps to `handling 2` if what it does with a response keeps to `handling 1`, and what is done
in there with another one to `handling 0`. That is all that is used of the calls.
-/

namespace ImageTransfer.Transfer

open Exchange Registry

/-- What a client is asked to do: to talk to a registry, or to work on an image. -/
inductive Call
  | supportsVersion2 (registry : String)
  | getManifest (ref : Reference)
  | putManifest (ref : Reference) (manifest : Manifest)
  | hasBlob (ref : Reference) (digest : String)
  /-- To go through a blob to its end, piece by piece. -/
  | drainBlob (ref : Reference) (digest : String) (accept : List String)
  | readBlob (ref : Reference) (digest : String) (accept : List String)
  | upload (ref : Reference) (digest : String) (listens : Bool) (data : List UInt8)
  | uploadPieces (ref : Reference) (digest : String) (listens : Bool) (total : Int)
      (pieces : List (List UInt8))
  | mountBlob (source target : Reference) (digest : String)
  | copyBlob (source target : Reference) (digest : String) (listens : Bool)
  | copyImage (source target : Reference) (listens : Bool)
  | exportImage (policy : Option IntegrityPolicy) (ref : Reference) (listens : Bool)
  | inspectImage (policy : Option IntegrityPolicy) (ref : Reference)
  | pullBlob (policy : Option IntegrityPolicy) (ref : Reference) (digest : String)

/-- The pieces that a blob comes in. -/
def drainBlob (s : Settings) (ref : Reference) (digest : String) (accept : List String) :
    Exchange (Array (List UInt8)) :=
  foldBlob s ref digest accept #[] fun pieces piece => pure (pieces.push piece)

/-- The world after a call, whatever has come of it. -/
def Call.after (decoders : Compression.Decoders) (s : Settings) (w : World) : Call → World
  | supportsVersion2 registry => (Registry.supportsVersion2 s registry w).2
  | getManifest ref => (Registry.getManifest s ref w).2
  | putManifest ref manifest => (Registry.putManifest s ref manifest w).2
  | hasBlob ref digest => (Registry.hasBlob s ref digest w).2
  | drainBlob ref digest accept => (Transfer.drainBlob s ref digest accept w).2
  | readBlob ref digest accept => (Registry.readBlob s ref digest accept w).2
  | upload ref digest listens data => (Registry.upload s ref digest listens data w).2
  | uploadPieces ref digest listens total pieces =>
    (Registry.uploadPieces s ref digest listens total pieces w).2
  | mountBlob source target digest => (Registry.mountBlob s source target digest w).2
  | copyBlob source target digest listens =>
    (Registry.copyBlob s source target digest listens w).2
  | copyImage source target listens => (Transfer.copyImage s source target listens w).2
  | exportImage policy ref listens => (Transfer.exportImage decoders s policy ref listens w).2
  | inspectImage policy ref => (Transfer.inspectImage s policy ref w).2
  | pullBlob policy ref digest => (Transfer.pullBlob s policy ref digest w).2

/-- The world after calls one after the other; a call that fails does not keep the next one from
being made. -/
def afterCalls (decoders : Compression.Decoders) (s : Settings) (w : World) (calls : List Call) :
    World :=
  calls.foldl (fun w call => call.after decoders s w) w

variable {decoders : Compression.Decoders} {s : Settings} {source target ref : Reference}
  {listens : Bool} {total : Int} {policy : Option IntegrityPolicy} {limit : Nat} {F G H : Frame}

/-! ## Images that are copied -/

theorem keeps_copyPart (hF : F.Serving G) (hG : G.Serving H) [F.Hears listens] (what : String)
    (index : Int) (digest : String) :
    Keeps F (copyPart s source target listens total what index digest) :=
  keeps_bind (hF.keeps_log (by decide) _ _) fun _ =>
    keeps_bind (hF.keeps_warnOnFailure (by decide) _ (keeps_copyBlob hF hG _)) fun _ =>
      keeps_report _ _ _ _

theorem keeps_copyLayers (hF : F.Serving G) (hG : G.Serving H) [F.Hears listens]
    (layers : List Descriptor) (index : Int) :
    Keeps F (copyLayers s source target listens total index layers) := by
  induction layers generalizing index with
  | nil => exact keeps_pure _
  | cons layer layers ih => exact keeps_bind (keeps_copyPart hF hG _ _ _) fun _ => ih _

theorem keeps_copyImage (hF : F.Serving G) (hG : G.Serving H) [F.Hears listens] :
    Keeps F (copyImage s source target listens) := by
  refine keeps_bind (hF.keeps_warnOnFailure (by decide) _ (keeps_getManifest hF)) fun m =>
    keeps_bind (keeps_ofExcept _ _) fun config => keeps_bind (keeps_ofExcept _ _) fun layers =>
      keeps_bind ?_ fun _ => ?_
  · exact keeps_bind (keeps_copyPart hF hG _ _ _) fun _ => keeps_copyLayers hF hG layers 2
  · exact keeps_bind (hF.keeps_warnOnFailure (by decide) _ (keeps_putManifest hF m)) fun _ =>
      keeps_bind (hF.keeps_log (by decide) _ _) fun _ => keeps_pure _

/-! ## Images that are exported and blobs that are pulled -/

theorem keeps_inspectImage (hF : F.Serving G) (hA : F.Heedless) :
    Keeps F (inspectImage s policy ref) :=
  keeps_bind (keeps_getManifest hF) fun m => keeps_fetchConfig hF hA m

theorem keeps_exportImage (hF : F.Serving G) (hA : F.Heedless) (hR : F.Recording)
    (hS : G.Recording) [F.Hears listens] : Keeps F (exportImage decoders s policy ref listens) := by
  have hdownloading (work : Archive.Path) : F.Downloading G work :=
    { toServing := hF, toStoring := hR.storing, toHeedless := hA, inner := hS.storing }
  unfold exportImage
  split
  · refine keeps_bind (hF.keeps_warnOnFailure (by decide) _ (keeps_getManifest hF)) fun m => ?_
    refine keeps_bind (keeps_tryCatch ?_ fun _ => keeps_throw _) fun exported =>
      keeps_bind (hF.keeps_log (by decide) _ _) fun _ => keeps_pure _
    -- what is staged may be packed, which opens nothing
    refine hR.keeps_withWorkDirectory fun work => ?_
    exact keeps_bind (keeps_layOutImage (hdownloading work)) fun _ =>
      keeps_bind (keeps_packDirectory hR.keeps_writes) fun _ => keeps_pure _
  · exact keeps_throw _

theorem keeps_pullBlob (hF : F.Serving G) (hA : F.Heedless) (hS : G.Recording) (digest : String) :
    Keeps F (pullBlob s policy ref digest) := by
  refine keeps_bind (keeps_checkAddress _) fun _ =>
    keeps_bind (hF.keeps_log (by decide) _ _) fun _ => keeps_bind (keeps_ofExcept _ _) fun _ => ?_
  refine keeps_bind (keeps_foldBlob hF fun _ piece => ?_) fun _ =>
    keeps_bind (keeps_checkDigest hA _ _ _) fun _ => keeps_pure _
  exact keeps_bind (hS.keeps_write piece) fun _ => keeps_pure _

/-! ## Calls -/

/-- **A call keeps to a frame that its requests keep to**, with one frame for what is done with a
response and another one for what is done with a second response meanwhile. -/
theorem Call.kept (hF : F.Serving G) (hG : G.Serving H) (hA : F.Heedless) (hR : F.Recording)
    (hS : G.Recording) [∀ listens, F.Hears listens] [∀ listens, G.Hears listens] (w : World)
    (call : Call) : F.rel w (call.after decoders s w) := by
  cases call with
  | supportsVersion2 registry => exact keeps_supportsVersion2 hF registry w
  | getManifest ref => exact keeps_getManifest hF w
  | putManifest ref manifest => exact keeps_putManifest hF manifest w
  | hasBlob ref digest => exact keeps_hasBlob hF digest w
  | drainBlob ref digest accept => exact keeps_foldBlob hF (fun _ _ => keeps_pure _) w
  | readBlob ref digest accept => exact keeps_readBlob hF w
  | upload ref digest listens data => exact keeps_uploadChunks hF _ w
  | uploadPieces ref digest listens total pieces => exact keeps_uploadChunks hF _ w
  | mountBlob source target digest => exact keeps_mountBlob hF w
  | copyBlob source target digest listens => exact keeps_copyBlob hF hG listens w
  | copyImage source target listens => exact keeps_copyImage hF hG w
  | exportImage policy ref listens => exact keeps_exportImage hF hA hR hS w
  | inspectImage policy ref => exact keeps_inspectImage hF hA w
  | pullBlob policy ref digest => exact keeps_pullBlob hF hA hS digest w

theorem handling_heedless : (handling limit).Heedless where
  warning _ w := handling_note w rfl

/-- **A call releases what it opens, and has room in two responses.** -/
theorem Call.handled (s : Settings) (w : World) (call : Call) :
    (handling 2).rel w (call.after decoders s w) :=
  call.kept (G := handling 1) (H := handling 0) handling_serving handling_serving handling_heedless
    handling_recording handling_recording w

/-- What happens in calls one after the other falls into parts, one for each call. -/
theorem afterCalls_parts (s : Settings) (calls : List Call) (w : World) :
    ∃ parts : List (List Event), parts.length = calls.length ∧
      (∀ n, (afterCalls decoders s w (calls.take n)).events.toList =
        w.events.toList ++ (parts.take n).flatten) ∧
      (∀ part ∈ parts, Handled 2 part) ∧ Handled 2 parts.flatten := by
  induction calls generalizing w with
  | nil =>
      refine ⟨[], rfl, fun n => ?_, nofun, .nil 2⟩
      rw [List.take_nil, List.take_nil, List.flatten_nil, List.append_nil]
      rfl
  | cons call calls ih =>
      obtain ⟨part, hpart, hhandled⟩ := call.handled s w
      obtain ⟨parts, hlen, hevents, hparts, hall⟩ := ih (call.after decoders s w)
      refine ⟨part :: parts, by rw [List.length_cons, List.length_cons, hlen], fun n => ?_, ?_, ?_⟩
      · cases n with
        | zero => exact (List.append_nil _).symm
        | succ n =>
            show (afterCalls decoders s (call.after decoders s w) (calls.take n)).events.toList = _
            rw [hevents n, hpart, List.append_assoc]
            rfl
      · intro p hp
        rcases List.mem_cons.1 hp with rfl | hp
        · exact hhandled
        · exact hparts p hp
      · exact hhandled.append hall

/-- **Whatever a client is asked to do, no response is left open, and never are more than two open.**
The events of calls fall into parts, one for each call. In each part as many responses are released
as are opened, wherever the call has ended, and after any number of events of them all at most two
responses are open. -/
theorem calls_releaseResponses (decoders : Compression.Decoders) (s : Settings) (calls : List Call)
    (w : World) :
    ∃ parts : List (List Event), parts.length = calls.length ∧
      (∀ n, (afterCalls decoders s w (calls.take n)).events.toList =
        w.events.toList ++ (parts.take n).flatten) ∧
      (∀ part ∈ parts, openAfter part = 0) ∧
      ∀ n, 0 ≤ openAfter (parts.flatten.take n) ∧ openAfter (parts.flatten.take n) ≤ 2 := by
  obtain ⟨parts, hlen, hevents, hparts, hall⟩ := afterCalls_parts s calls w
  exact ⟨parts, hlen, hevents, fun part hpart => (hparts part hpart).released, hall.bounded⟩

end ImageTransfer.Transfer
