import ImageTransfer.Image.Config
import ImageTransfer.Proofs.Json.Legible

/-!
# Configurations come back as they were written

An export changes a configuration in one place: the list of the layers' digests. Everything else of it
has to survive being read, written and read again. That the values survive is due to their being
legible, and stays so when the list is put in (`legible_withDiffIds`); that they stay where they were
is `Members.Replaces`, which a `put` is an instance of.
-/

namespace ImageTransfer

open Json

/-- A member takes the place of the one of its name, or comes last if there was none. All others stay
as they are. -/
inductive Json.Members.Replaces (name : Text) (v : Value) : Members → Members → Prop
  | inPlace {before after : Members} {old : Value} : name ∉ Members.names before →
      name ∉ Members.names after →
      Replaces name v (before ++ (name, old) :: after) (before ++ (name, v) :: after)
  | last {ms : Members} : name ∉ Members.names ms → Replaces name v ms (ms ++ [(name, v)])

theorem Json.Members.put_append {before : Members} {name : Text} (h : name ∉ Members.names before)
    (after : Members) (old v : Value) :
    Members.put (before ++ (name, old) :: after) name v = before ++ (name, v) :: after := by
  induction before with
  | nil => exact if_pos rfl
  | cons m before ih =>
      obtain ⟨n, w⟩ := m
      rw [names, List.map_cons, List.mem_cons, not_or] at h
      rw [List.cons_append, put, if_neg (Ne.symm h.1), ih h.2, List.cons_append]

/-- **Giving a name a value replaces one member.** -/
theorem Json.Members.replaces_put {ms : Members} (hnames : (Members.names ms).Nodup) (name : Text)
    (v : Value) : Members.Replaces name v ms (Members.put ms name v) := by
  by_cases hmem : name ∈ Members.names ms
  · obtain ⟨⟨_, old⟩, hm, rfl⟩ := List.mem_map.1 hmem
    obtain ⟨before, after, rfl⟩ := List.append_of_mem hm
    rw [names, List.map_append, List.map_cons, List.nodup_middle, List.nodup_cons, List.mem_append,
      not_or] at hnames
    rw [put_append hnames.1.1]
    exact .inPlace hnames.1.1 hnames.1.2
  · rw [Members.put_of_not_mem hmem]
    exact .last hmem

namespace ImageConfig

/-- A configuration has other diff IDs than it had. Of its members only the one that holds them
differs, and in that one only their list; if it was no object, it is a new one. -/
def DiffIdsReplaced (config : Members) (diffIds : List String) (written : Members) : Prop :=
  ∃ rootfs, Members.Replaces (Text.ofString "rootfs") (.object rootfs) config written ∧
    match member? config "rootfs" with
    | some (.object old) =>
      Members.Replaces (Text.ofString "diff_ids") (diffIdValue diffIds) old rootfs
    | _ => rootfs = [(Text.ofString "type", .ofString "layers"),
        (Text.ofString "diff_ids", diffIdValue diffIds)]

/-- The values in a configuration that was read may contain as many containers as this, and two
more. -/
def innerRoom : Nat := nestingLimit - 3

theorem legible_of_ofBytes {bytes : List UInt8} {config : Members} (h : ofBytes bytes = .ok config) :
    LegibleMembers (innerRoom + 2) config := by
  unfold ofBytes at h
  split at h
  · cases h
  · rename_i hread
    cases h
    exact (legible_of_readDocument hread).members
  · cases h

theorem legible_diffIdValue (room : Nat) (diffIds : List String) :
    Legible (room + 1) (diffIdValue diffIds) := by
  refine .array fun v hv => ?_
  obtain ⟨s, -, rfl⟩ := List.mem_map.1 hv
  exact .text _

theorem mem_of_member? {config : Members} {name : String} {v : Value}
    (h : member? config name = some v) : (Text.ofString name, v) ∈ config := by
  obtain ⟨m, hm, rfl⟩ := Option.map_eq_some_iff.1 h
  have hname := List.find?_some hm
  rw [beq_iff_eq] at hname
  rw [← hname]
  exact List.mem_of_find?_eq_some hm

/-- **A configuration stays legible** when the list of diff IDs is put in: the list stands in two
containers, and there is room for more. -/
theorem legible_withDiffIds {room : Nat} {config : Members} (h : LegibleMembers (room + 2) config)
    (diffIds : List String) : LegibleMembers (room + 2) (withDiffIds config diffIds) := by
  have hlist := legible_diffIdValue room diffIds
  refine h.put _ (LegibleMembers.put ?_ _ hlist).object
  -- the member that is to hold the list was an object, or is a new one
  split
  · rename_i ms hms
    exact (h.values _ (mem_of_member? hms)).members
  · exact (legibleMembers_nil (room + 1)).put (Text.ofString "type") (.text (Text.ofString "layers"))

/-- **Only the diff IDs are replaced.** -/
theorem diffIdsReplaced_withDiffIds {room : Nat} {config : Members}
    (h : LegibleMembers (room + 2) config) (diffIds : List String) :
    DiffIdsReplaced config diffIds (withDiffIds config diffIds) := by
  refine ⟨_, Members.replaces_put h.names _ _, ?_⟩
  rcases hrootfs : member? config "rootfs" with _ | v
  · rfl
  · cases v with
    | object ms =>
        have hms := (h.values _ (mem_of_member? hrootfs)).members
        exact Members.replaces_put hms.names _ _
    | _ => rfl

/-- **A configuration that is written with other diff IDs is read back with them.** -/
theorem ofBytes_bytes {served bytes : List UInt8} {config : Members} {diffIds : List String}
    (h : ofBytes served = .ok config)
    (hbytes : ImageConfig.bytes (withDiffIds config diffIds) = .ok bytes) :
    ofBytes bytes = .ok (withDiffIds config diffIds) := by
  have hlegible := (legible_withDiffIds (legible_of_ofBytes h) diffIds).object
  unfold ImageConfig.bytes at hbytes
  split at hbytes
  · rename_i hdocument
    cases hbytes
    rw [ofBytes, readDocument_object hlegible hdocument]
  · cases hbytes

end ImageConfig

end ImageTransfer
