/-
# Ueventd.Platform — the platform device registry

`platform_names` lists the platform devices in the order their `add` events arrived.
`find_platform_device` scans it from the end for a device whose path is a directory prefix of a
devpath; block and USB symlinks are named after that device. `remove_platform_device` unlinks the
newest entry with exactly the removed path, and `add_platform_device` appends without looking for
an existing one.

Two facts about whole runs are proved here. When devices are added parent before child, the list
stays ordered by the directory tree, and the reverse scan then finds the deepest registered
ancestor (`find_platform_device_longest`). The registry keeps one entry per `add`: a `remove`
drops exactly one, so a device added twice survives a single `remove`
(`platform_remove_keeps_second_add`, `platform_entries_count`).
-/
import Ueventd.CString

namespace Ueventd

/-- The short name of a platform device: its path without `/devices/`, then without
`platform/`. -/
def platformName (path : CStr) : CStr :=
  if "/devices/".toList <+: path then
    if "platform/".toList <+: path.drop 9 then (path.drop 9).drop 9 else path.drop 9
  else path

/-- `struct platform_node`: the device path, the length `find_platform_device` compares with,
and the short name `add_platform_device` points into the path, so that it is always the path's
tail. -/
structure PlatformNode where
  name : CStr
  path : CStr
  pathLen : Nat
  pathLen_eq : pathLen = path.length
  name_eq : name = platformName path

/-- `add_platform_device(path)`. -/
def addPlatformDevice (path : CStr) (reg : List PlatformNode) : List PlatformNode :=
  reg ++ [⟨platformName path, path, path.length, rfl, rfl⟩]

/-- The test of `find_platform_device`: `path_len < strlen(path)`, `path[path_len] == '/'` and
`strncmp(path, bus->path, path_len) == 0`, the last one a prefix test since `bus->path` has
exactly `path_len` characters. -/
def platformMatches (path : CStr) (bus : PlatformNode) : Bool :=
  decide (bus.pathLen < path.length) && path[bus.pathLen]? == some '/' && decide (bus.path <+: path)

/-- `find_platform_device(path)`: the newest entry whose path is a directory prefix of `path`. -/
def findPlatformDevice (reg : List PlatformNode) (path : CStr) : Option PlatformNode :=
  reg.reverse.find? (platformMatches path)

/-- `remove_platform_device(path)`: unlink the newest entry whose path is `path`. -/
def removePlatformDevice (path : CStr) (reg : List PlatformNode) : List PlatformNode :=
  (reg.reverse.eraseP fun bus => bus.path == path).reverse

/-- `handle_platform_device_event`, on the event's `ACTION` and `DEVPATH`. -/
def handlePlatformDeviceEvent (reg : List PlatformNode) (action path : CStr) : List PlatformNode :=
  if action = "add".toList then addPlatformDevice path reg
  else if action = "remove".toList then removePlatformDevice path reg
  else reg

/-- A platform-subsystem uevent: `(ACTION, DEVPATH)`. -/
abbrev PlatformEvent := CStr × CStr

/-- The registry after a run of platform events. -/
def platformRun (reg : List PlatformNode) (evs : List PlatformEvent) : List PlatformNode :=
  evs.foldl (fun reg ev => handlePlatformDeviceEvent reg ev.1 ev.2) reg

/-! ## The directory order -/

/-- `p` lies strictly below the directory `a`. -/
def DirBelow (a p : CStr) : Prop := a ++ ['/'] <+: p

instance (a p : CStr) : Decidable (DirBelow a p) := inferInstanceAs (Decidable (a ++ ['/'] <+: p))

theorem platformMatches_iff {path : CStr} {bus : PlatformNode} :
    platformMatches path bus = true ↔ DirBelow bus.path path := by
  obtain ⟨name, bp, _, rfl, -⟩ := bus
  simp only [platformMatches, Bool.and_eq_true, decide_eq_true_eq, beq_iff_eq, DirBelow]
  constructor
  · rintro ⟨⟨hlt, hslash⟩, rest, rfl⟩
    cases rest with
    | nil => simp at hlt
    | cons c rest =>
      simp only [List.getElem?_append_right (le_refl _), Nat.sub_self, List.getElem?_cons_zero,
        Option.some.injEq] at hslash
      subst hslash
      exact ⟨rest, by simp⟩
  · rintro ⟨rest, rfl⟩
    simp only [List.append_assoc, List.singleton_append]
    refine ⟨⟨by simp, ?_⟩, List.prefix_append _ _⟩
    rw [List.getElem?_append_right (le_refl _), Nat.sub_self, List.getElem?_cons_zero]

/-- Entries come before the entries strictly below them. -/
def TreeOrdered (reg : List PlatformNode) : Prop :=
  reg.Pairwise fun a b => ¬ DirBelow b.path a.path

/-- A run in which no device is added while a registered one lies strictly below it: the order
of kernel hotplug and of the pre-order coldboot walk. -/
def ParentsFirst : List PlatformNode → List PlatformEvent → Prop
  | _, [] => True
  | reg, (action, path) :: evs =>
    (action = "add".toList → ∀ e ∈ reg, ¬ DirBelow path e.path) ∧
      ParentsFirst (handlePlatformDeviceEvent reg action path) evs

instance ParentsFirst.decidable :
    (reg : List PlatformNode) → (evs : List PlatformEvent) → Decidable (ParentsFirst reg evs)
  | _, [] => inferInstanceAs (Decidable True)
  | reg, (action, path) :: evs =>
    have := ParentsFirst.decidable (handlePlatformDeviceEvent reg action path) evs
    inferInstanceAs (Decidable ((action = "add".toList → ∀ e ∈ reg, ¬ DirBelow path e.path) ∧
      ParentsFirst (handlePlatformDeviceEvent reg action path) evs))

theorem removePlatformDevice_sublist (path : CStr) (reg : List PlatformNode) :
    List.Sublist (removePlatformDevice path reg) reg := by
  simpa using (List.eraseP_sublist reg.reverse).reverse

/-- One event keeps the tree order, given that an added device has nothing registered below it. -/
theorem treeOrdered_handle {reg : List PlatformNode} (h : TreeOrdered reg) {action path : CStr}
    (hadd : action = "add".toList → ∀ e ∈ reg, ¬ DirBelow path e.path) :
    TreeOrdered (handlePlatformDeviceEvent reg action path) := by
  unfold handlePlatformDeviceEvent
  split
  · exact List.pairwise_append.mpr ⟨h, List.pairwise_singleton _ _,
      fun a ha b hb => by simp only [List.mem_singleton] at hb; subst hb; exact hadd ‹_› a ha⟩
  · split
    · exact h.sublist (removePlatformDevice_sublist path reg)
    · exact h

theorem treeOrdered_run {reg : List PlatformNode} {evs : List PlatformEvent} (h : TreeOrdered reg)
    (hrun : ParentsFirst reg evs) : TreeOrdered (platformRun reg evs) := by
  induction evs generalizing reg with
  | nil => exact h
  | cons ev evs ih =>
    obtain ⟨action, path⟩ := ev
    exact ih (treeOrdered_handle h hrun.1) hrun.2

theorem DirBelow.irrefl (p : CStr) : ¬ DirBelow p p := fun h => by
  simpa using h.length_le

/-- An event leaves in the registry only what was there and the device it names. -/
theorem mem_handlePlatformDeviceEvent {reg : List PlatformNode} {action path : CStr}
    {e : PlatformNode} (he : e ∈ handlePlatformDeviceEvent reg action path) :
    e ∈ reg ∨ e.path = path := by
  unfold handlePlatformDeviceEvent at he
  split at he
  · rcases List.mem_append.mp he with h | h
    · exact .inl h
    · exact .inr (by rw [List.mem_singleton.mp h])
  · split at he
    · exact .inl ((removePlatformDevice_sublist path reg).subset he)
    · exact .inl he

/-- A run in which no event names a directory above an earlier event's path, from a registry
with nothing below any of the run's paths, is parent-first. -/
theorem parentsFirst_of_pairwise {reg : List PlatformNode} {evs : List PlatformEvent}
    (hreg : ∀ e ∈ reg, ∀ ev ∈ evs, ¬ DirBelow ev.2 e.path)
    (hevs : evs.Pairwise fun ev ev' => ¬ DirBelow ev'.2 ev.2) : ParentsFirst reg evs := by
  induction evs generalizing reg with
  | nil => trivial
  | cons ev evs ih =>
    obtain ⟨action, path⟩ := ev
    rw [List.pairwise_cons] at hevs
    refine ⟨fun _ e he => hreg e he _ (List.mem_cons_self _ _), ih (fun e he ev hev => ?_) hevs.2⟩
    rcases mem_handlePlatformDeviceEvent he with he | rfl
    · exact hreg e he ev (List.mem_cons_of_mem _ hev)
    · exact hevs.1 ev hev

/-- **The newest match is the deepest.** After a parent-first run from the empty registry, the
list is ordered by the directory tree and `find_platform_device(p)` returns an entry whose path
is the longest registered directory prefix of `p`, and `NULL` exactly when there is none. -/
theorem find_platform_device_longest (evs : List PlatformEvent) (hrun : ParentsFirst [] evs) :
    TreeOrdered (platformRun [] evs) ∧ ∀ p : CStr,
      (findPlatformDevice (platformRun [] evs) p = none ↔
        ∀ e ∈ platformRun [] evs, ¬ DirBelow e.path p) ∧
      ∀ b, findPlatformDevice (platformRun [] evs) p = some b →
        b ∈ platformRun [] evs ∧ DirBelow b.path p ∧
          ∀ e ∈ platformRun [] evs, DirBelow e.path p → e.path.length ≤ b.path.length := by
  have hord := treeOrdered_run List.Pairwise.nil hrun
  refine ⟨hord, fun p => ⟨?_, fun b hb => ?_⟩⟩
  · simp [findPlatformDevice, List.find?_eq_none, platformMatches_iff]
  · obtain ⟨hbp, pre, post, hsplit, hpost⟩ := find?_reverse_eq_some.mp hb
    rw [platformMatches_iff] at hbp
    refine ⟨by simp [hsplit], hbp, fun e he hep => ?_⟩
    rw [hsplit] at he hord
    rcases List.mem_append.mp he with hpre | hpost'
    · -- an earlier ancestor of `p` is no deeper than `b`, or `b` would lie below it
      by_contra hlt
      have hbelow : DirBelow b.path e.path :=
        List.prefix_of_prefix_length_le hbp ((List.prefix_append _ _).trans hep) (by simp; omega)
      exact (List.pairwise_append.mp hord).2.2 e hpre b (List.mem_cons_self _ _) hbelow
    · rcases List.mem_cons.mp hpost' with rfl | hpost'
      · exact le_rfl
      · exact absurd (platformMatches_iff.mpr hep) (by simp [hpost e hpost'])

theorem find_platform_device_longest_two_level :
    ParentsFirst [] [("add".toList, "/devices/platform/soc.0".toList),
      ("add".toList, "/devices/platform/soc.0/usb1".toList)] ∧
    TreeOrdered (platformRun [] [("add".toList, "/devices/platform/soc.0".toList),
      ("add".toList, "/devices/platform/soc.0/usb1".toList)]) :=
  ⟨by decide, (find_platform_device_longest _ (by decide)).1⟩

/-! ## Repeated adds -/

/-- The number of registry entries whose path is `d`. -/
def entriesFor (d : CStr) (reg : List PlatformNode) : Nat :=
  reg.countP fun e => e.path == d

/-- A `remove` drops one entry with its path, if there is one, and nothing else. -/
theorem entriesFor_remove (d path : CStr) (reg : List PlatformNode) :
    entriesFor d (removePlatformDevice path reg) =
      if path = d then entriesFor d reg - 1 else entriesFor d reg := by
  unfold entriesFor removePlatformDevice
  rw [List.countP_reverse]
  by_cases hex : ∃ a ∈ reg.reverse, (a.path == path) = true
  · obtain ⟨a, ha, hpa⟩ := hex
    obtain ⟨a, l₁, l₂, -, hpa, hsplit, herase⟩ :=
      List.exists_of_eraseP (p := fun bus => bus.path == path) ha hpa
    rw [herase, ← List.countP_reverse (l := reg), hsplit]
    simp only [beq_iff_eq] at hpa
    subst hpa
    by_cases h : a.path = d <;> simp [List.countP_append, h]
  · push_neg at hex
    rw [List.eraseP_of_forall_not (fun a ha h => hex a ha h), List.countP_reverse]
    split
    · subst_vars
      have : reg.countP (fun e => e.path == path) = 0 :=
        List.countP_eq_zero.mpr fun a ha => hex a (List.mem_reverse.mpr ha)
      omega
    · rfl

theorem entriesFor_handle (d : CStr) (reg : List PlatformNode) (action path : CStr) :
    entriesFor d (handlePlatformDeviceEvent reg action path) =
      if action = "add".toList ∧ path = d then entriesFor d reg + 1
      else if action = "remove".toList ∧ path = d then entriesFor d reg - 1
      else entriesFor d reg := by
  unfold handlePlatformDeviceEvent
  by_cases ha : action = "add".toList
  · by_cases hp : path = d <;> simp [ha, hp, addPlatformDevice, entriesFor, List.countP_append]
  · by_cases hr : action = "remove".toList
    · by_cases hp : path = d <;> simp [ha, hr, hp, entriesFor_remove]
    · rw [if_neg ha, if_neg hr, if_neg (fun h => ha h.1), if_neg (fun h => hr h.1)]

theorem entriesFor_run_zero {d : CStr} {reg : List PlatformNode} {evs : List PlatformEvent}
    (h0 : entriesFor d reg = 0) (hno : ∀ ev ∈ evs, ev ≠ ("add".toList, d)) :
    entriesFor d (platformRun reg evs) = 0 := by
  induction evs generalizing reg with
  | nil => exact h0
  | cons ev evs ih =>
    obtain ⟨action, path⟩ := ev
    refine ih ?_ (fun ev hev => hno ev (List.mem_cons_of_mem _ hev))
    have hadd : ¬ (action = "add".toList ∧ path = d) := by
      rintro ⟨rfl, rfl⟩
      exact hno _ (List.mem_cons_self _ _) rfl
    rw [entriesFor_handle, if_neg hadd]
    split <;> omega

/-- **What a `remove` undoes.** An `add` of `d` adds one entry with path `d`, a `remove` of `d`
drops one if there is one, any other event leaves their number alone. So once `d` is removed at a
point where the registry held at most one entry for it, and until `d` is added again, no entry
has path `d` and `find_platform_device` never returns one. -/
theorem platform_entries_count (d : CStr) :
    (∀ reg action path, entriesFor d (handlePlatformDeviceEvent reg action path) =
      if action = "add".toList ∧ path = d then entriesFor d reg + 1
      else if action = "remove".toList ∧ path = d then entriesFor d reg - 1
      else entriesFor d reg) ∧
    ∀ reg evs, entriesFor d reg ≤ 1 → (∀ ev ∈ evs, ev ≠ ("add".toList, d)) →
      entriesFor d (platformRun (removePlatformDevice d reg) evs) = 0 ∧
      ∀ p b, findPlatformDevice (platformRun (removePlatformDevice d reg) evs) p = some b →
        b.path ≠ d := by
  refine ⟨entriesFor_handle d, fun reg evs hle hno => ?_⟩
  have h0 : entriesFor d (platformRun (removePlatformDevice d reg) evs) = 0 :=
    entriesFor_run_zero (by rw [entriesFor_remove, if_pos rfl]; omega) hno
  refine ⟨h0, fun p b hb hbd => ?_⟩
  have hmem := List.mem_reverse.mp (List.mem_of_find?_eq_some hb)
  exact absurd h0 (List.countP_pos_iff.mpr ⟨b, hmem, by simp [hbd]⟩).ne'

theorem platform_entries_count_single_add :
    let d := "/devices/platform/soc.0".toList
    let evs : List PlatformEvent := [("add".toList, "/devices/platform/soc.1".toList),
      ("remove".toList, d), ("change".toList, "/devices/platform/soc.1".toList)]
    let reg := platformRun (removePlatformDevice d (addPlatformDevice d [])) evs
    entriesFor d (addPlatformDevice d []) ≤ 1 ∧ (∀ ev ∈ evs, ev ≠ ("add".toList, d)) ∧
      entriesFor d reg = 0 ∧
      (findPlatformDevice reg "/devices/platform/soc.1/usb1".toList).map (·.path) =
        some "/devices/platform/soc.1".toList ∧
      ∀ p ∈ ["/devices/platform/soc.0/mmcblk0".toList, "/devices/platform/soc.1/usb1".toList],
        ∀ b, findPlatformDevice reg p = some b → b.path ≠ d := by
  intro d evs reg
  have hle : entriesFor d (addPlatformDevice d []) ≤ 1 := by decide
  have hno : ∀ ev ∈ evs, ev ≠ ("add".toList, d) := by decide
  obtain ⟨h0, hfind⟩ := (platform_entries_count d).2 _ evs hle hno
  exact ⟨hle, hno, h0, by decide, fun p _ => hfind p⟩

/-- A device added twice, by a coldboot-synthesised `add` after the real one, survives a single
`remove`: `find_platform_device` still returns it for the paths below it. -/
theorem platform_remove_keeps_second_add :
    ((findPlatformDevice (platformRun [] [("add".toList, "/devices/platform/soc.0".toList),
        ("add".toList, "/devices/platform/soc.0".toList),
        ("remove".toList, "/devices/platform/soc.0".toList)])
      "/devices/platform/soc.0/mmcblk0".toList).map (·.path)) =
      some "/devices/platform/soc.0".toList := by
  decide

end Ueventd
