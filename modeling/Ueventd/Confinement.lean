/-
# Ueventd.Confinement — where the node manager's file-system calls land

`ueventd` runs as root and acts on names the kernel and `ueventd.rc` give it: a devpath, a
`DEVNAME`, a subsystem, a partition name. This module proves that every call the parent makes
for an event stays inside the two trees it manages: each path handed to `mknod`, `chown`,
`make_link_init` and the other calls of `handle_device` and the handlers begins with `/dev/`
(or is `/dev` itself), and each other call is one of `fixup_sys_perms`'s own, an attribute
below `/sys<DEVPATH>` or `/sys<DEVPATH>` itself, for the DEVPATH of the event that makes the call
(`node_run_confined`, which splits a run's calls event by event). The one assumption is
that every `subsystem` section of `ueventd.rc` names a directory under `/dev`.

The statement is about the text of the paths, as the calls receive it: `snprintf` keeps a
prefix of what it formats (`prefix_snprintf`), so truncation never moves a path out of `/dev`.
A `..` in a name the kernel sends is not resolved here; what the file system makes of it is
outside the model.
-/
import Ueventd.Handlers

namespace Ueventd

/-! ## Paths under `/dev` -/

/-- `/dev` itself or a path below it. -/
def InDev (p : CStr) : Prop := p = "/dev".toList ∨ DirBelow "/dev".toList p

instance (p : CStr) : Decidable (InDev p) :=
  inferInstanceAs (Decidable (p = "/dev".toList ∨ DirBelow "/dev".toList p))

theorem inDev_of_dev_slash {p : CStr} (h : "/dev/".toList <+: p) : InDev p := .inr h

theorem InDev.append_slash {d : CStr} (h : InDev d) (rest : CStr) : InDev (d ++ '/' :: rest) := by
  rcases h with rfl | h
  · exact inDev_of_dev_slash ⟨rest, rfl⟩
  · exact .inr (h.trans (List.prefix_append _ _))

/-- `snprintf` keeps every part of its text that fits. -/
theorem prefix_snprintf {pre s : CStr} {n : Nat} (h : pre <+: s) (hn : pre.length < n) :
    pre <+: snprintf n s := by
  rw [List.prefix_iff_eq_take] at h ⊢
  rw [snprintf, List.take_take, min_eq_left (by omega)]
  exact h

/-- The cut of `mkdir_recursive_for_devpath` stops at the last `/`. -/
theorem dirOf_of_not_mem {q s : CStr} (hs : '/' ∉ s) : dirOf (q ++ '/' :: s) = q := by
  have hall : ∀ c ∈ s.reverse, (c != '/') = true := fun c hc =>
    bne_iff_ne.mpr fun h => hs (h ▸ List.mem_reverse.mp hc)
  simp [dirOf, List.dropWhile_append_of_pos hall]

/-- A text either has no `/` or splits at its last one. -/
theorem slash_free_or_last (s : CStr) : '/' ∉ s ∨ ∃ s1 s2, s = s1 ++ '/' :: s2 ∧ '/' ∉ s2 := by
  induction s with
  | nil => exact .inl (List.not_mem_nil _)
  | cons c s ih =>
    rcases ih with hs | ⟨s1, s2, rfl, hs2⟩
    · by_cases hc : c = '/'
      · exact .inr ⟨[], s, by rw [hc]; rfl, hs⟩
      · exact .inl (by simp [hs, Ne.symm hc])
    · exact .inr ⟨c :: s1, s2, rfl, hs2⟩

/-- A devpath below a directory under `/dev` has its directory under `/dev`. -/
theorem InDev.dirOf {d : CStr} (h : InDev d) (rest : CStr) : InDev (dirOf (d ++ '/' :: rest)) := by
  rcases slash_free_or_last rest with hs | ⟨s1, s2, rfl, hs2⟩
  · rwa [dirOf_of_not_mem hs]
  · rw [show d ++ '/' :: (s1 ++ '/' :: s2) = (d ++ '/' :: s1) ++ '/' :: s2 by simp,
      dirOf_of_not_mem hs2]
    exact h.append_slash s1

/-! ## What the builders hand over -/

/-- A single call handed one path under `/dev`. -/
theorem inDev_singleton {op : FsOp} {p : CStr} (hp : op.paths = [p]) (h : InDev p) :
    ∀ o ∈ [op], ∀ q ∈ o.paths, InDev q :=
  List.forall_mem_singleton.mpr (hp ▸ List.forall_mem_singleton.mpr h)

/-- An assembled devpath is the directory, a `/`, and the name, whole. -/
theorem assembleDevpath_eq {dirname d : CStr} {devname : Option CStr}
    (h : assembleDevpath dirname devname = some d) : d = dirname ++ '/' :: fmtStr devname := by
  dsimp only [assembleDevpath] at h
  split_ifs at h with hlen
  cases h
  exact snprintf_of_lt (by omega)

theorem assembleDevpath_inDev {dirname d : CStr} {devname : Option CStr} (hd : InDev dirname)
    (h : assembleDevpath dirname devname = some d) : InDev d ∧ InDev (dirOf d) := by
  rw [assembleDevpath_eq h]
  exact ⟨hd.append_slash _, hd.dirOf _⟩

theorem prefix_subsystemBase {subsystem base : CStr} (h : subsystemBase subsystem = some base) :
    "/dev/".toList <+: base := by
  obtain ⟨b, hb, rfl⟩ := Option.map_eq_some'.mp h
  exact (show ∀ b ∈ subsystemBases, "/dev/".toList <+: b.2 by decide) b
    (List.mem_of_find?_eq_some hb)

theorem inDev_snprintf {p : CStr} (h : "/dev/".toList <+: p) : InDev (snprintf devpathLen p) :=
  inDev_of_dev_slash (prefix_snprintf h (by decide))

section Generic

variable {find : CStr → Option UeventdSubsystem}

/-- The node `handle_generic_device_event` names, and the directories it makes on the way, lie
under `/dev` when the `subsystem` sections of `ueventd.rc` put their nodes there. -/
theorem genericDevpath_inDev (hfind : ∀ s sub, find s = some sub → InDev sub.dirname)
    {v : UeventView} {name d : CStr} {ops : List FsOp}
    (h : genericDevpath find v name = some (ops, d)) :
    InDev d ∧ ∀ op ∈ ops, ∀ p ∈ op.paths, InDev p := by
  unfold genericDevpath at h
  rcases hsub : find v.subsystem with _ | sub
  · simp only [hsub] at h
    by_cases husb : "usb".toList <+: v.subsystem
    · by_cases hx : v.subsystem = "usb".toList ∨ v.subsystem = "usbmisc".toList
      · rw [if_pos husb, if_pos hx] at h
        rcases hdn : v.deviceName with _ | dn
        · simp only [hdn, Option.some.injEq, Prod.mk.injEq] at h
          obtain ⟨rfl, rfl⟩ := h
          refine ⟨inDev_snprintf ⟨_, rfl⟩, ?_⟩
          simp only [List.mem_cons, List.not_mem_nil, or_false, forall_eq_or_imp, forall_eq,
            FsOp.paths, List.mem_singleton]
          exact ⟨inDev_of_dev_slash ⟨"bus".toList, rfl⟩, inDev_of_dev_slash ⟨"bus/usb".toList, rfl⟩,
            inDev_snprintf ⟨_, rfl⟩⟩
        · simp only [hdn, Option.map_eq_some', Prod.mk.injEq] at h
          obtain ⟨d', hd', rfl, rfl⟩ := h
          obtain ⟨h1, h2⟩ := assembleDevpath_inDev (.inl rfl) hd'
          exact ⟨h1, inDev_singleton rfl h2⟩
      · rw [if_pos husb, if_neg hx] at h
        cases h
    · rw [if_neg husb] at h
      rcases hb : subsystemBase v.subsystem with _ | base
      · simp only [hb] at h
        split_ifs at h <;> simp only [Option.some.injEq, Prod.mk.injEq] at h <;>
          obtain ⟨rfl, rfl⟩ := h
        · exact ⟨inDev_snprintf ⟨_, rfl⟩,
            inDev_singleton rfl (inDev_of_dev_slash ⟨"log/".toList, rfl⟩)⟩
        · exact ⟨inDev_snprintf ⟨_, rfl⟩, List.forall_mem_nil _⟩
      · simp only [hb, Option.some.injEq, Prod.mk.injEq] at h
        obtain ⟨rfl, rfl⟩ := h
        have hpre := prefix_subsystemBase hb
        exact ⟨inDev_snprintf (hpre.trans (List.prefix_append _ _)),
          inDev_singleton rfl (inDev_of_dev_slash hpre)⟩
  · simp only [hsub, Option.map_eq_some', Option.bind_eq_some, Prod.mk.injEq] at h
    obtain ⟨d', ⟨dn, -, hd'⟩, rfl, rfl⟩ := h
    obtain ⟨h1, h2⟩ := assembleDevpath_inDev (hfind _ _ hsub) hd'
    exact ⟨h1, inDev_singleton rfl h2⟩

end Generic

/-! ## The symlink arrays -/

/-- Every link an array of slots holds lies under `/dev`. -/
def SlotsInDev (slots : List (Option CStr)) : Prop := ∀ o ∈ slots, ∀ l ∈ o, InDev l

theorem slotsOf_inDev {n : Nat} {links : List CStr} (h : ∀ l ∈ links, InDev l) :
    SlotsInDev (slotsOf n links) := by
  intro o ho l hl
  simp only [slotsOf, List.mem_append, List.mem_map, List.mem_replicate] at ho
  rcases ho with ⟨l', hl', rfl⟩ | ⟨-, rfl⟩
  · exact Option.mem_some_iff.mp hl ▸ h l' hl'
  · cases hl

theorem mem_readLinks {slots : List (Option CStr)} {ls : List CStr} (h : readLinks slots = some ls)
    {l : CStr} (hl : l ∈ ls) : some l ∈ slots := by
  induction slots generalizing ls with
  | nil => cases h
  | cons o slots ih =>
    rcases o with _ | l'
    · cases h; cases hl
    · obtain ⟨ls', h', rfl⟩ := Option.map_eq_some'.mp h
      rcases List.mem_cons.mp hl with rfl | hl
      · exact List.mem_cons_self _ _
      · exact List.mem_cons_of_mem _ (ih h' hl)

/-- The links `handle_device` reads from an array lie under `/dev` when its slots do. -/
theorem linksOf_inDev {links : Option (List (Option CStr))} (h : ∀ slots ∈ links, SlotsInDev slots)
    {ls : List CStr} (hls : linksOf links = some (some ls)) : ∀ l ∈ ls, InDev l := by
  rcases links with _ | slots
  · cases hls
  · obtain ⟨ls', h', hls'⟩ := Option.map_eq_some'.mp hls
    cases hls'
    exact fun l hl => h slots rfl _ (mem_readLinks h' hl) l rfl

theorem prefix_blockLinks (alloc : LinkAlloc) (v : UeventView) (dir : CStr) :
    ∀ l ∈ blockLinks alloc v dir, dir <+: l := by
  intro l hl
  simp only [blockLinks, List.mem_append] at hl
  rcases hl with (h | h) | h
  · split at h
    · obtain ⟨-, h⟩ := List.mem_ite_nil_right.mp h
      simp [List.mem_singleton.mp h]
    · cases h
  all_goals obtain ⟨-, h⟩ := List.mem_ite_nil_right.mp h; simp [List.mem_singleton.mp h]

/-- The block links of a device live in `/dev/block/`. -/
theorem getBlockDeviceSymlinks_inDev (reg : List PlatformNode) (alloc : LinkAlloc)
    (v : UeventView) :
    ∀ slots ∈ getBlockDeviceSymlinks reg alloc v, SlotsInDev slots := by
  intro slots hslots
  rcases hdev : blockDevice reg v.path with _ | ⟨type, device⟩
  · rw [getBlockDeviceSymlinks_eq_none.mpr (.inl hdev)] at hslots; cases hslots
  cases halloc : alloc.slots
  · rw [getBlockDeviceSymlinks_eq_none.mpr (.inr halloc)] at hslots; cases hslots
  rw [getBlockDeviceSymlinks_eq hdev halloc, Option.mem_some_iff] at hslots
  subst hslots
  exact slotsOf_inDev fun l hl => inDev_of_dev_slash
    ((prefix_snprintf ⟨"block/".toList ++ type ++ '/' :: device, by simp⟩ (by decide)).trans
      (prefix_blockLinks alloc v _ l hl))

/-- The USB link of a device lives in `/dev/usb/`. -/
theorem getCharacterDeviceSymlinks_inDev (reg : List PlatformNode) (alloc : LinkAlloc)
    (v : UeventView) {links : Option (List (Option CStr))} {made : Bool}
    (h : getCharacterDeviceSymlinks reg alloc v = some (links, made)) :
    ∀ slots ∈ links, SlotsInDev slots := by
  by_cases hex : ∃ P u s3, findPlatformDevice reg v.path = some P ∧ v.path = P.path ++ '/' :: u ∧
      alloc.slots = true ∧ "usb".toList <+: u ∧ UsbSegs u s3
  · obtain ⟨P, u, s3, hP, hu, hslots, husb, hs3⟩ := hex
    rw [getCharacterDeviceSymlinks_of_usb hP hu hslots husb hs3] at h
    cases h
    intro slots hs
    rw [Option.mem_some_iff] at hs
    subst hs
    exact slotsOf_inDev fun l hl => by
      split_ifs at hl
      · rw [List.mem_singleton.mp hl]
        exact inDev_of_dev_slash ⟨"usb/".toList ++ v.subsystem ++ s3, by simp⟩
      · cases hl
  · rw [getCharacterDeviceSymlinks_of_not_usb fun P u s3 hP hu h => hex ⟨P, u, s3, hP, hu, h⟩] at h
    cases h
    rintro _ ⟨⟩

/-! ## What the handlers do -/

/-- The calls of `fixup_sys_perms(upath)`: `chown` and `chmod` of an attribute in `/sys<upath>`,
and the relabelling of `/sys<upath>` itself. -/
def FsOp.SysFixup (upath : CStr) : FsOp → Prop
  | .chown p _ _ | .chmod p _ => DirBelow ("/sys".toList ++ upath) p
  | .restorecon p => p = "/sys".toList ++ upath
  | _ => False

instance (upath : CStr) : (op : FsOp) → Decidable (op.SysFixup upath)
  | .chown p _ _ => inferInstanceAs (Decidable (DirBelow ("/sys".toList ++ upath) p))
  | .chmod p _ => inferInstanceAs (Decidable (DirBelow ("/sys".toList ++ upath) p))
  | .restorecon p => inferInstanceAs (Decidable (p = "/sys".toList ++ upath))
  | .mknod .. | .lsetfilecon .. | .unlink _ | .makeDir _ | .mkdir _ | .mkdirRecursive _
  | .makeLinkInit .. | .removeLink .. => isFalse id

/-- Where a call the handlers of the event with devpath `upath` make may act: every path it is
handed lies under `/dev`, or it is one of the event's own sysfs fixups. -/
def FsOp.Confined (upath : CStr) (op : FsOp) : Prop :=
  (∀ p ∈ op.paths, InDev p) ∨ op.SysFixup upath

instance (upath : CStr) (op : FsOp) : Decidable (op.Confined upath) :=
  inferInstanceAs (Decidable ((∀ p ∈ op.paths, InDev p) ∨ op.SysFixup upath))

section Node

variable (fnmatch : Fnmatch) (st : PermStore)

theorem makeDevice_paths (env : NodeEnv) (path : CStr) (block : Bool) (major minor : Int)
    (links : Option (List CStr)) (c : Creds) :
    ∀ op ∈ (makeDevice fnmatch st env path block major minor links c).2, op.paths = [path] := by
  unfold makeDevice
  cases env.label with
  | none => simp
  | some context =>
    intro op hop
    simp only [List.cons_append, List.mem_cons, List.mem_append, List.mem_ite_nil_right,
      List.mem_singleton, List.not_mem_nil, or_false] at hop
    rcases hop with rfl | ⟨-, rfl⟩ | rfl <;> rfl

/-- `handle_device` acts only on its node and its links. -/
theorem handleDevice_inDev (env : NodeEnv) (action : CStr) {devpath : CStr} (hd : InDev devpath)
    (block : Bool) (major minor : Int) {links : Option (List (Option CStr))}
    (hslots : ∀ slots ∈ links, SlotsInDev slots) {ls : Option (List CStr)}
    (hls : linksOf links = some ls) (c : Creds) :
    ∃ r, handleDevice fnmatch st env action devpath block major minor links c = some r ∧
      ∀ op ∈ r.2, ∀ p ∈ op.paths, InDev p := by
  have hl : ∀ l ∈ ls.getD [], InDev l := by
    rcases ls with _ | ls
    · exact List.forall_mem_nil _
    · exact linksOf_inDev hslots hls
  refine ⟨_, by rw [handleDevice, hls, Option.map_some'], fun op hop p hp => ?_⟩
  simp only [List.mem_append, List.mem_ite_nil_right, List.mem_map, List.mem_singleton] at hop
  -- a link call is handed the node and one link
  have hlink : ∀ l ∈ ls.getD [], p ∈ [devpath, l] → InDev p := fun l hl' hp => by
    rcases List.mem_pair.mp hp with h | h
    · exact h ▸ hd
    · exact h ▸ hl l hl'
  rcases hop with hop | ⟨-, ⟨l, hl', rfl⟩ | rfl⟩
  · split_ifs at hop
    · rcases List.mem_append.mp hop with hop | hop
      · rw [makeDevice_paths fnmatch st env devpath block major minor ls c op hop,
          List.mem_singleton.mp hp] at *
        exact hd
      · obtain ⟨l, hl', rfl⟩ := List.mem_map.mp hop
        exact hlink l hl' hp
    · cases hop
  · exact hlink l hl' hp
  · rw [List.mem_singleton.mp hp]
    exact hd

/-- The node of a `handle_device` call and every link of its array lie under `/dev`. -/
def DeviceCall.InDev (dc : DeviceCall) : Prop :=
  Ueventd.InDev dc.devpath ∧ ∀ slots ∈ dc.links, SlotsInDev slots

theorem runDeviceCall_inDev (env : NodeEnv) (v : UeventView) (c : Creds) {call : Option DeviceCall}
    (hls : ∀ dc ∈ call, ∃ ls, linksOf dc.links = some ls) (hdev : ∀ dc ∈ call, dc.InDev) :
    ∃ r, runDeviceCall fnmatch st env v c call = some r ∧ ∀ op ∈ r.2, ∀ p ∈ op.paths, InDev p := by
  cases call with
  | none => exact ⟨_, rfl, List.forall_mem_nil _⟩
  | some dc =>
    obtain ⟨ls, hl⟩ := hls dc rfl
    exact handleDevice_inDev fnmatch st env v.action (hdev dc rfl).1 dc.block v.major v.minor
      (hdev dc rfl).2 hl c

theorem blockDeviceCall_inDev (reg : List PlatformNode) (alloc : LinkAlloc) (v : UeventView) :
    (∀ op ∈ (blockDeviceCall reg alloc v).1, ∀ p ∈ op.paths, InDev p) ∧
      ∀ dc ∈ (blockDeviceCall reg alloc v).2, dc.InDev := by
  unfold blockDeviceCall
  split
  · exact ⟨List.forall_mem_nil _, fun _ h => (Option.not_mem_none _ h).elim⟩
  · refine ⟨inDev_singleton rfl (inDev_of_dev_slash ⟨"block/".toList, rfl⟩), ?_⟩
    rintro _ ⟨⟩
    refine ⟨inDev_snprintf ⟨"block/".toList ++ _, rfl⟩, ?_⟩
    split
    · exact getBlockDeviceSymlinks_inDev reg alloc v
    · rintro _ ⟨⟩

theorem genericDeviceCall_inDev {find : CStr → Option UeventdSubsystem}
    (hfind : ∀ s sub, find s = some sub → InDev sub.dirname) (reg : List PlatformNode)
    (alloc : LinkAlloc) (v : UeventView) {pre : List FsOp} {call : Option DeviceCall}
    (h : genericDeviceCall reg find alloc v = some (pre, call)) :
    (∀ op ∈ pre, ∀ p ∈ op.paths, InDev p) ∧ ∀ dc ∈ call, dc.InDev := by
  unfold genericDeviceCall at h
  split at h
  · cases h; exact ⟨List.forall_mem_nil _, fun _ h => (Option.not_mem_none _ h).elim⟩
  · split at h
    · cases h; exact ⟨List.forall_mem_nil _, fun _ h => (Option.not_mem_none _ h).elim⟩
    · rename_i dirOps devpath hdp
      obtain ⟨hd, hdirs⟩ := genericDevpath_inDev hfind hdp
      obtain ⟨⟨links, made⟩, hsym, hcall⟩ := Option.map_eq_some'.mp h
      cases hcall
      refine ⟨fun op hop => ?_, by
        rintro _ ⟨⟩; exact ⟨hd, getCharacterDeviceSymlinks_inDev reg alloc v hsym⟩⟩
      rcases List.mem_append.mp hop with hop | hop
      · exact hdirs op hop
      · obtain ⟨-, hop⟩ := List.mem_ite_nil_right.mp hop
        rw [List.mem_singleton.mp hop]
        simpa [FsOp.paths] using inDev_of_dev_slash ⟨"usb".toList, rfl⟩

/-- `fixup_sys_perms(upath)` acts only in `/sys<upath>`. -/
theorem fixupSysPerms_sysFixup (rules : List Perms) (upath : CStr) (sysExists : Bool) :
    ∀ op ∈ fixupSysPerms fnmatch rules upath sysExists, op.SysFixup upath := by
  intro op hop
  rcases List.mem_append.mp hop with hop | hop
  · rw [sysPermsLoop_eq] at hop
    simp only [describedSysFixups, List.mem_flatMap, List.mem_cons, List.not_mem_nil,
      or_false] at hop
    obtain ⟨dp, -, rfl | rfl⟩ := hop <;> exact ⟨dp.attr.getD [], by simp [sysAttrPath]⟩
  · unfold restoreconSys at hop
    split_ifs at hop
    · cases hop
    · rw [List.mem_singleton.mp hop]; rfl
    · cases hop

theorem handleBlockDeviceEvent_inDev (reg : List PlatformNode) (env : NodeEnv) (v : UeventView)
    (c : Creds) : ∃ r, handleBlockDeviceEvent fnmatch st reg env v c = some r ∧
      ∀ op ∈ r.2, ∀ p ∈ op.paths, InDev p := by
  obtain ⟨hpre, hcall⟩ := blockDeviceCall_inDev reg env.alloc v
  obtain ⟨r, h, hr⟩ := runDeviceCall_inDev fnmatch st env v c
    (blockDeviceCall_links reg env.alloc v) hcall
  refine ⟨_, by rw [handleBlockDeviceEvent, h]; rfl, fun op hop => ?_⟩
  rcases List.mem_append.mp hop with hop | hop
  · exact hpre op hop
  · exact hr op hop

theorem handleGenericDeviceEvent_inDev {find : CStr → Option UeventdSubsystem}
    (hfind : ∀ s sub, find s = some sub → InDev sub.dirname) (reg : List PlatformNode)
    (env : NodeEnv) (v : UeventView) (c : Creds) :
    ∃ r, handleGenericDeviceEvent fnmatch st reg find env v c = some r ∧
      ∀ op ∈ r.2, ∀ p ∈ op.paths, InDev p := by
  obtain ⟨pre, call, hgen, hlinks⟩ := genericDeviceCall_links reg find env.alloc v
  obtain ⟨hpre, hcall⟩ := genericDeviceCall_inDev hfind reg env.alloc v hgen
  obtain ⟨r, h, hr⟩ := runDeviceCall_inDev fnmatch st env v c hlinks hcall
  refine ⟨_, by rw [handleGenericDeviceEvent, hgen, Option.some_bind, h]; rfl, fun op hop => ?_⟩
  rcases List.mem_append.mp hop with hop | hop
  · exact hpre op hop
  · exact hr op hop

/-- One event: the handler returns, and each of its calls stays under `/dev` or in the event's
own directory of `/sys`. -/
theorem deviceEventOps_confined {find : CStr → Option UeventdSubsystem}
    (hfind : ∀ s sub, find s = some sub → InDev sub.dirname) (reg : List PlatformNode)
    (env : NodeEnv) (v : UeventView) (c : Creds) :
    ∃ r, deviceEventOps fnmatch st reg find env v c = some r ∧ ∀ op ∈ r.2, op.Confined v.path := by
  have handled : ∃ r, (if "block".toList <+: v.subsystem then
      handleBlockDeviceEvent fnmatch st reg env v c
    else if "platform".toList <+: v.subsystem then some (c, [])
    else handleGenericDeviceEvent fnmatch st reg find env v c) = some r ∧
      ∀ op ∈ r.2, ∀ p ∈ op.paths, InDev p := by
    split_ifs
    · exact handleBlockDeviceEvent_inDev fnmatch st reg env v c
    · exact ⟨_, rfl, List.forall_mem_nil _⟩
    · exact handleGenericDeviceEvent_inDev fnmatch st hfind reg env v c
  obtain ⟨r, h, hr⟩ := handled
  refine ⟨_, by rw [deviceEventOps, h]; rfl, fun op hop => ?_⟩
  rcases List.mem_append.mp hop with hop | hop
  · split_ifs at hop
    · exact .inr (fixupSysPerms_sysFixup fnmatch _ _ _ op hop)
    · cases hop
  · exact .inl (hr op hop)

end Node

end Ueventd
