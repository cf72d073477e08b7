/-
# Ueventd.Handlers — the block and generic handlers, and the file-system side of an event

`handle_block_device_event` and `handle_generic_device_event` name a device's node after the
last segment of its devpath (`parse_device_name`), choose its directory, build its symlinks and
call `handle_device`. The generic handler routes by subsystem: a `subsystem` section of
`ueventd.rc` first, then USB devices, then a table of subsystem prefixes, then `/dev/`.
`handle_device_event` runs `fixup_sys_perms` before the handlers for `add`, `change` and
`online`; a platform event makes no file-system call.

Each handler is split into the call of `handle_device` it makes (`blockDeviceCall`,
`genericDeviceCall`) and that call, so that what it passes is a value a theorem can name.

These facts about whole events are proved here. The credentials are at rest after every event
of every run, whatever the external calls return (`make_device_restores_credentials`). The
generic devpath is the routing table's, built in full in its 96-byte buffer
(`handle_generic_device_event_devpath`), except that an override taking its name from a missing
`DEVNAME` formats `(null)` into a node's path (`generic_device_event_null_devname`). On `add` a
block device below a platform device gets its by-name link (`block_add_links_by_name`); but the
block links are built in the 256-byte `link_path` without a length check, and a long enough
platform name or PCI prefix hands truncated links to `make_link_init` (`block_links_truncated`).
Two USB devices without `DEVNAME` share a `/dev/bus/usb` node only when their minor numbers are
equal (`usb_bus_nodes_distinct`).

The routing table (`routedDevpath`) is written from the description, apart from the handler: its
subsystem prefixes are a chain of tests (`routedBase`) and its `%03d` is core's decimal numeral
padded to three places (`pad3`). The handler's table and numeral are shown equal to them
(`subsystemBase_eq_routedBase`, `zeroPad3_eq_pad3`).
-/
import Ueventd.Nodes

namespace Ueventd

/-! ## Naming a node -/

/-- `parse_device_name(uevent, len)`: the devpath's last segment, when the event has a device
number and the segment has at most `len` characters. -/
def parseDeviceName (v : UeventView) (len : Nat) : Option CStr :=
  if v.major < 0 ∨ v.minor < 0 then none
  else if '/' ∉ v.path then none
  else if len < (afterLast '/' v.path).length then none
  else some (afterLast '/' v.path)

/-- `DEVPATH_LEN`, the size of the devpath buffers. -/
def devpathLen : Nat := 96

/-- The text `snprintf`'s `%s` prints for a `char *` that may be `NULL`: bionic prints
`(null)`. -/
def fmtStr : Option CStr → CStr
  | some s => s
  | none => "(null)".toList

/-- `assemble_devpath(devpath, dirname, devname)`: the devpath, or `none` when `snprintf` reports
that it does not fit. -/
def assembleDevpath (dirname : CStr) (devname : Option CStr) : Option CStr :=
  let s := dirname ++ '/' :: fmtStr devname
  if devpathLen ≤ s.length then none else some (snprintf devpathLen s)

/-- The directory `mkdir_recursive_for_devpath(devpath)` makes: the devpath up to its last
`/`. -/
def dirOf (path : CStr) : CStr := ((path.reverse.dropWhile (· != '/')).drop 1).reverse

/-- `%03d` of a number that is not negative. -/
def zeroPad3 (n : Nat) : CStr := List.replicate (3 - (natDigits n).length) '0' ++ natDigits n

/-- Where a `subsystem` section of `ueventd.rc` takes a node's name from. -/
inductive DevnameSrc
  | unknown
  | devname
  | devpath
  deriving DecidableEq, Repr

/-- A `subsystem` section of `ueventd.rc`, as `ueventd_subsystem_find_by_name` returns it. -/
structure UeventdSubsystem where
  dirname : CStr
  devnameSrc : DevnameSrc
  deriving DecidableEq, Repr

/-- The subsystems `handle_generic_device_event` recognises by their first characters, with the
directory of each, in the order it tests them. -/
def subsystemBases : List (CStr × CStr) :=
  [("graphics".toList, "/dev/graphics/".toList), ("drm".toList, "/dev/dri/".toList),
    ("oncrpc".toList, "/dev/oncrpc/".toList), ("adsp".toList, "/dev/adsp/".toList),
    ("msm_camera".toList, "/dev/msm_camera/".toList), ("input".toList, "/dev/input/".toList),
    ("mtd".toList, "/dev/mtd/".toList), ("sound".toList, "/dev/snd/".toList)]

/-- The directory of the first entry of `subsystemBases` that begins the subsystem's name. -/
def subsystemBase (subsystem : CStr) : Option CStr :=
  (subsystemBases.find? fun b => decide (b.1 <+: subsystem)).map (·.2)

/-- The devpath `handle_generic_device_event` builds for the node `name`, with the directories it
makes on the way; `none` when it drops the event. `find` is `ueventd_subsystem_find_by_name`.
The minor number is not negative here, so C's `/` and `%` are those of `Nat`. -/
def genericDevpath (find : CStr → Option UeventdSubsystem) (v : UeventView) (name : CStr) :
    Option (List FsOp × CStr) :=
  match find v.subsystem with
  | some sub =>
    let devname : Option (Option CStr) := match sub.devnameSrc with
      | .devname => some v.deviceName
      | .devpath => some (some name)
      | .unknown => none
    (devname.bind (assembleDevpath sub.dirname)).map fun d => ([.mkdirRecursive (dirOf d)], d)
  | none =>
    if "usb".toList <+: v.subsystem then
      if v.subsystem = "usb".toList ∨ v.subsystem = "usbmisc".toList then
        match v.deviceName with
        | some dn =>
          (assembleDevpath "/dev".toList (some dn)).map fun d => ([.mkdirRecursive (dirOf d)], d)
        | none =>
          let busId := v.minor.toNat / 128 + 1
          let deviceId := v.minor.toNat % 128 + 1
          some ([.makeDir "/dev/bus".toList, .makeDir "/dev/bus/usb".toList,
              .makeDir (snprintf devpathLen ("/dev/bus/usb/".toList ++ zeroPad3 busId))],
            snprintf devpathLen
              ("/dev/bus/usb/".toList ++ zeroPad3 busId ++ '/' :: zeroPad3 deviceId))
      else none
    else
      match subsystemBase v.subsystem with
      | some base => some ([.makeDir base], snprintf devpathLen (base ++ name))
      | none =>
        if "misc".toList <+: v.subsystem ∧ "log_".toList <+: name then
          some ([.makeDir "/dev/log/".toList],
            snprintf devpathLen ("/dev/log/".toList ++ name.drop 4))
        else some ([], snprintf devpathLen ("/dev/".toList ++ name))

/-! ## The handlers -/

/-- The arguments of a `handle_device` call that the handlers choose: the node's path, whether
it is a block device, and the symlink array. -/
structure DeviceCall where
  devpath : CStr
  block : Bool
  links : Option (List (Option CStr))

/-- `handle_block_device_event(uevent)` up to its `handle_device` call: the calls it makes first
and the call, `none` when it drops the event. -/
def blockDeviceCall (reg : List PlatformNode) (alloc : LinkAlloc) (v : UeventView) :
    List FsOp × Option DeviceCall :=
  match parseDeviceName v 64 with
  | none => ([], none)
  | some name =>
    ([.makeDir "/dev/block/".toList],
      some ⟨snprintf devpathLen ("/dev/block/".toList ++ name), true,
        if "/devices/".toList <+: v.path then getBlockDeviceSymlinks reg alloc v else none⟩)

/-- `handle_generic_device_event(uevent)` up to its `handle_device` call; `none` when the USB
walk reads past the devpath's terminator. -/
def genericDeviceCall (reg : List PlatformNode) (find : CStr → Option UeventdSubsystem)
    (alloc : LinkAlloc) (v : UeventView) : Option (List FsOp × Option DeviceCall) :=
  match parseDeviceName v 64 with
  | none => some ([], none)
  | some name =>
    match genericDevpath find v name with
    | none => some ([], none)
    | some (dirOps, devpath) =>
      (getCharacterDeviceSymlinks reg alloc v).map fun (links, madeUsb) =>
        (dirOps ++ if madeUsb then [.mkdir "/dev/usb".toList] else [],
          some ⟨devpath, false, links⟩)

section Events

variable (fnmatch : Fnmatch) (st : PermStore)

/-- The `handle_device` call a handler makes, if any. -/
def runDeviceCall (env : NodeEnv) (v : UeventView) (c : Creds) :
    Option DeviceCall → Option (Creds × List FsOp)
  | none => some (c, [])
  | some call => handleDevice fnmatch st env v.action call.devpath call.block v.major v.minor
      call.links c

/-- `handle_block_device_event(uevent)`: the credentials after it and its calls. -/
def handleBlockDeviceEvent (reg : List PlatformNode) (env : NodeEnv) (v : UeventView)
    (c : Creds) : Option (Creds × List FsOp) :=
  (runDeviceCall fnmatch st env v c (blockDeviceCall reg env.alloc v).2).map fun r =>
    (r.1, (blockDeviceCall reg env.alloc v).1 ++ r.2)

/-- `handle_generic_device_event(uevent)`: the credentials after it and its calls. -/
def handleGenericDeviceEvent (reg : List PlatformNode) (find : CStr → Option UeventdSubsystem)
    (env : NodeEnv) (v : UeventView) (c : Creds) : Option (Creds × List FsOp) :=
  (genericDeviceCall reg find env.alloc v).bind fun call =>
    (runDeviceCall fnmatch st env v c call.2).map fun r => (r.1, call.1 ++ r.2)

/-- The file-system side of `handle_device_event(uevent)` on the registry the event finds:
`fixup_sys_perms` for `add`, `change` and `online`, then the block or the generic handler. -/
def deviceEventOps (reg : List PlatformNode) (find : CStr → Option UeventdSubsystem)
    (env : NodeEnv) (v : UeventView) (c : Creds) : Option (Creds × List FsOp) :=
  let fixups := if v.action = "add".toList ∨ v.action = "change".toList ∨
      v.action = "online".toList then fixupSysPerms fnmatch st.sysPerms v.path env.sysExists
    else []
  let handled :=
    if "block".toList <+: v.subsystem then handleBlockDeviceEvent fnmatch st reg env v c
    else if "platform".toList <+: v.subsystem then some (c, [])
    else handleGenericDeviceEvent fnmatch st reg find env v c
  handled.map fun r => (r.1, fixups ++ r.2)

/-- The parent's file-system side over a run of events, each with the platform registry it
finds and the outcomes of its external calls; `none` on a fault. -/
def nodeRun (find : CStr → Option UeventdSubsystem) (c : Creds) :
    List (List PlatformNode × NodeEnv × UeventView) → Option (Creds × List FsOp)
  | [] => some (c, [])
  | (reg, env, v) :: evs =>
    (deviceEventOps fnmatch st reg find env v c).bind fun r =>
      (nodeRun find r.1 evs).map fun r' => (r'.1, r.2 ++ r'.2)

end Events

/-! ## Every array is read inside its slots -/

theorem linksOf_getBlockDeviceSymlinks (reg : List PlatformNode) (alloc : LinkAlloc)
    (v : UeventView) : ∃ ls, linksOf (getBlockDeviceSymlinks reg alloc v) = some ls := by
  rcases hdev : blockDevice reg v.path with _ | ⟨type, device⟩
  · exact ⟨none, by rw [getBlockDeviceSymlinks_eq_none.mpr (.inl hdev)]; rfl⟩
  cases hslots : alloc.slots
  · exact ⟨none, by rw [getBlockDeviceSymlinks_eq_none.mpr (.inr hslots)]; rfl⟩
  · exact ⟨_, by rw [getBlockDeviceSymlinks_eq hdev hslots, linksOf,
      readLinks_slotsOf (blockLinks_length_lt _ _ _)]; rfl⟩

/-- The USB builder never faults, and `handle_device` reads its array inside the slots. -/
theorem getCharacterDeviceSymlinks_linksOf (reg : List PlatformNode) (alloc : LinkAlloc)
    (v : UeventView) : ∃ links made ls, getCharacterDeviceSymlinks reg alloc v = some (links, made) ∧
      linksOf links = some ls := by
  by_cases hex : ∃ P u s3, findPlatformDevice reg v.path = some P ∧ v.path = P.path ++ '/' :: u ∧
      alloc.slots = true ∧ "usb".toList <+: u ∧ UsbSegs u s3
  · obtain ⟨P, u, s3, hP, hu, hslots, husb, hs3⟩ := hex
    exact ⟨_, _, _, getCharacterDeviceSymlinks_of_usb hP hu hslots husb hs3,
      by rw [linksOf, readLinks_usbSlots]; rfl⟩
  · exact ⟨_, _, _, getCharacterDeviceSymlinks_of_not_usb fun P u s3 hP hu h =>
      hex ⟨P, u, s3, hP, hu, h⟩, rfl⟩

theorem blockDeviceCall_links (reg : List PlatformNode) (alloc : LinkAlloc) (v : UeventView) :
    ∀ call ∈ (blockDeviceCall reg alloc v).2, ∃ ls, linksOf call.links = some ls := by
  unfold blockDeviceCall
  split
  · simp
  · rintro _ ⟨⟩
    split
    · exact linksOf_getBlockDeviceSymlinks reg alloc v
    · exact ⟨none, rfl⟩

theorem genericDeviceCall_links (reg : List PlatformNode) (find : CStr → Option UeventdSubsystem)
    (alloc : LinkAlloc) (v : UeventView) :
    ∃ pre call, genericDeviceCall reg find alloc v = some (pre, call) ∧
      ∀ dc ∈ call, ∃ ls, linksOf dc.links = some ls := by
  unfold genericDeviceCall
  split
  · exact ⟨_, _, rfl, by simp⟩
  · split
    · exact ⟨_, _, rfl, by simp⟩
    · obtain ⟨links, made, ls, h, hls⟩ := getCharacterDeviceSymlinks_linksOf reg alloc v
      exact ⟨_, _, by rw [h]; rfl, by rintro _ ⟨⟩; exact ⟨ls, hls⟩⟩

/-! ## The credentials over a run -/

section Creds

variable (fnmatch : Fnmatch) (st : PermStore)

theorem runDeviceCall_atRest {env : NodeEnv} {v : UeventView} {c : Creds} (hc : c.AtRest)
    {call : Option DeviceCall} (hcall : ∀ dc ∈ call, ∃ ls, linksOf dc.links = some ls) :
    ∃ r, runDeviceCall fnmatch st env v c call = some r ∧ r.1.AtRest := by
  cases call with
  | none => exact ⟨_, rfl, hc⟩
  | some dc =>
    obtain ⟨ls, hls⟩ := hcall dc rfl
    exact handleDevice_atRest fnmatch st hls hc

theorem handleBlockDeviceEvent_atRest (reg : List PlatformNode) (env : NodeEnv) (v : UeventView)
    {c : Creds} (hc : c.AtRest) :
    ∃ r, handleBlockDeviceEvent fnmatch st reg env v c = some r ∧ r.1.AtRest := by
  obtain ⟨r, h, hr⟩ := runDeviceCall_atRest fnmatch st hc (blockDeviceCall_links reg env.alloc v)
  refine ⟨_, by rw [handleBlockDeviceEvent, h]; rfl, ?_⟩
  exact hr

theorem handleGenericDeviceEvent_atRest (reg : List PlatformNode)
    (find : CStr → Option UeventdSubsystem) (env : NodeEnv) (v : UeventView) {c : Creds}
    (hc : c.AtRest) :
    ∃ r, handleGenericDeviceEvent fnmatch st reg find env v c = some r ∧ r.1.AtRest := by
  obtain ⟨pre, call, hcall, hlinks⟩ := genericDeviceCall_links reg find env.alloc v
  obtain ⟨r, h, hr⟩ := runDeviceCall_atRest fnmatch st hc hlinks
  refine ⟨_, by rw [handleGenericDeviceEvent, hcall, Option.some_bind, h]; rfl, ?_⟩
  exact hr

/-- One event, whichever handler takes it, returns with the credentials at rest. -/
theorem deviceEventOps_atRest (reg : List PlatformNode) (find : CStr → Option UeventdSubsystem)
    (env : NodeEnv) (v : UeventView) {c : Creds} (hc : c.AtRest) :
    ∃ r, deviceEventOps fnmatch st reg find env v c = some r ∧ r.1.AtRest := by
  have handled : ∃ r, (if "block".toList <+: v.subsystem then
      handleBlockDeviceEvent fnmatch st reg env v c
    else if "platform".toList <+: v.subsystem then some (c, [])
    else handleGenericDeviceEvent fnmatch st reg find env v c) = some r ∧ r.1.AtRest := by
    split_ifs
    · exact handleBlockDeviceEvent_atRest fnmatch st reg env v hc
    · exact ⟨_, rfl, hc⟩
    · exact handleGenericDeviceEvent_atRest fnmatch st reg find env v hc
  obtain ⟨r, h, hr⟩ := handled
  refine ⟨_, by rw [deviceEventOps, h]; rfl, ?_⟩
  exact hr

end Creds

/-- **`make_device` puts the credentials back.** For every run of events in the parent, with
any registry before each event and any outcome of every external call (a missing SELinux label,
`mknod` failing with `EEXIST`, failed allocations), every handler returns, and when the
effective gid is `AID_ROOT` and no fscreate context is set before the run, both hold again after
it, as after each of its events. -/
theorem make_device_restores_credentials (fnmatch : Fnmatch) (st : PermStore)
    (find : CStr → Option UeventdSubsystem)
    (evs : List (List PlatformNode × NodeEnv × UeventView)) (c : Creds) (hc : c.AtRest) :
    ∃ r, nodeRun fnmatch st find c evs = some r ∧ r.1.AtRest := by
  induction evs generalizing c with
  | nil => exact ⟨_, rfl, hc⟩
  | cons ev evs ih =>
    obtain ⟨reg, env, v⟩ := ev
    obtain ⟨r, h, hr⟩ := deviceEventOps_atRest fnmatch st reg find env v hc
    obtain ⟨r', h', hr'⟩ := ih r.1 hr
    refine ⟨_, by rw [nodeRun, h, Option.some_bind, h']; rfl, ?_⟩
    exact hr'

theorem make_device_restores_credentials_block_add :
    (⟨aidRoot, none⟩ : Creds).AtRest ∧
      ∃ r, nodeRun literalFnmatch .empty (fun _ => none) ⟨aidRoot, none⟩
        [([], ⟨some "u:object_r:block_device:s0".toList, true, ⟨true, true, true, true, true⟩, true⟩,
          ⟨"add".toList, "/devices/pci0000:00/0000:00:1f.2/host0/sda".toList, "block".toList, [],
            none, none, none, -1, 8, 0⟩)] = some r ∧ r.1.AtRest :=
  ⟨⟨rfl, rfl⟩, make_device_restores_credentials literalFnmatch .empty (fun _ => none) _ _
    ⟨rfl, rfl⟩⟩

/-! ## The routing table -/

/-- A path the routing table keeps: one shorter than the 96-byte devpath buffer. -/
def keepShort (p : CStr) : Option CStr := if devpathLen ≤ p.length then none else some p

/-- `%03d` of a number that is not negative, as the description writes it: its decimal numeral,
with zeros in front up to three characters. -/
def pad3 (n : Nat) : CStr := List.replicate (3 - (Nat.toDigits 10 n).length) '0' ++ Nat.toDigits 10 n

/-- The subsystem prefixes of the routing table and the directory of each, row by row. -/
def routedBase (subsystem : CStr) : Option CStr :=
  if "graphics".toList <+: subsystem then some "/dev/graphics/".toList
  else if "drm".toList <+: subsystem then some "/dev/dri/".toList
  else if "oncrpc".toList <+: subsystem then some "/dev/oncrpc/".toList
  else if "adsp".toList <+: subsystem then some "/dev/adsp/".toList
  else if "msm_camera".toList <+: subsystem then some "/dev/msm_camera/".toList
  else if "input".toList <+: subsystem then some "/dev/input/".toList
  else if "mtd".toList <+: subsystem then some "/dev/mtd/".toList
  else if "sound".toList <+: subsystem then some "/dev/snd/".toList
  else none

/-- The devpath of a generic device by the routing table of its description, the first matching
row deciding: a `subsystem` section of `ueventd.rc`, then `usb` and `usbmisc`, then any other
subsystem beginning with `usb` (no node), then the subsystem prefixes, then `misc` log devices,
then `/dev/`; `none` when the event is dropped. -/
def routedDevpath (find : CStr → Option UeventdSubsystem) (v : UeventView) (name : CStr) :
    Option CStr :=
  match find v.subsystem with
  | some sub =>
    match sub.devnameSrc with
    | .devname => v.deviceName.bind fun dn => keepShort (sub.dirname ++ '/' :: dn)
    | .devpath => keepShort (sub.dirname ++ '/' :: name)
    | .unknown => none
  | none =>
    if v.subsystem = "usb".toList ∨ v.subsystem = "usbmisc".toList then
      match v.deviceName with
      | some dn => keepShort ("/dev/".toList ++ dn)
      | none => some ("/dev/bus/usb/".toList ++ pad3 (v.minor.toNat / 128 + 1) ++ '/' ::
          pad3 (v.minor.toNat % 128 + 1))
    else if "usb".toList <+: v.subsystem then none
    else
      match routedBase v.subsystem with
      | some base => some (base ++ name)
      | none =>
        if "misc".toList <+: v.subsystem ∧ "log_".toList <+: name then
          some ("/dev/log/".toList ++ name.drop 4)
        else some ("/dev/".toList ++ name)

example : routedDevpath (fun _ => none) ⟨"add".toList, "/devices/virtual/input/input3/event0".toList,
    "input".toList, [], none, none, none, -1, 13, 64⟩ "event0".toList =
      some "/dev/input/event0".toList := by decide

example : routedDevpath (fun _ => none) ⟨"add".toList, "/devices/pci0/usb2/2-1".toList,
    "usb".toList, [], none, none, none, -1, 189, 130⟩ "2-1".toList =
      some "/dev/bus/usb/002/003".toList := by decide

theorem zeroPad3_eq_pad3 : zeroPad3 = pad3 :=
  funext fun n => by rw [zeroPad3, pad3, natDigits_eq_toDigits]

/-- A first-match search over a table of prefixes is the chain of its tests, row by row. -/
theorem find?_map_snd_eq_foldr (l : List (CStr × CStr)) (s : CStr) :
    (l.find? fun b => decide (b.1 <+: s)).map (·.2) =
      l.foldr (fun b r => if b.1 <+: s then some b.2 else r) none := by
  induction l with
  | nil => rfl
  | cons b l ih =>
    by_cases h : b.1 <+: s <;> simp only [List.find?_cons, List.foldr_cons, h, ih, decide_True,
      decide_False, if_true, if_false, Option.map_some']

/-- The handler's table of subsystem prefixes is the routing table's. -/
theorem subsystemBase_eq_routedBase (subsystem : CStr) :
    subsystemBase subsystem = routedBase subsystem :=
  find?_map_snd_eq_foldr subsystemBases subsystem

theorem natDigits_length_le {n k : Nat} (hk : 0 < k) (h : n < 10 ^ k) :
    (natDigits n).length ≤ k := by
  unfold natDigits
  split
  · simpa using hk
  · rename_i hn
    simp only [List.length_map, List.length_reverse]
    have hle := Nat.base_pow_length_digits_le 10 n (by norm_num) hn
    by_contra hlt
    have hpow : 10 ^ (k + 1) ≤ 10 ^ (Nat.digits 10 n).length :=
      Nat.pow_le_pow_right (by norm_num) (by omega)
    rw [pow_succ] at hpow
    omega

theorem zeroPad3_length_le {n k : Nat} (hk : 3 ≤ k) (h : n < 10 ^ k) :
    (zeroPad3 n).length ≤ k := by
  have := natDigits_length_le (by omega) h
  simp only [zeroPad3, List.length_append, List.length_replicate]
  omega

/-- The `/dev/bus/usb` path of an `int` minor number has at most 25 characters. -/
theorem usbBusPath_length (m : Nat) (hm : m ≤ 2147483647) :
    ("/dev/bus/usb/".toList ++ zeroPad3 (m / 128 + 1) ++ '/' :: zeroPad3 (m % 128 + 1)).length
      ≤ 25 := by
  have hbus := zeroPad3_length_le (n := m / 128 + 1) (k := 8) (by norm_num) (by norm_num; omega)
  have hdev := zeroPad3_length_le (n := m % 128 + 1) (k := 3) le_rfl (by norm_num; omega)
  simp only [List.length_append, List.length_cons]
  have : "/dev/bus/usb/".toList.length = 13 := rfl
  omega

theorem subsystemBase_length {subsystem base : CStr} (h : subsystemBase subsystem = some base) :
    base.length ≤ 16 := by
  obtain ⟨b, hb, rfl⟩ := Option.map_eq_some'.mp h
  exact (show ∀ b ∈ subsystemBases, b.2.length ≤ 16 by decide) b (List.mem_of_find?_eq_some hb)

theorem assembleDevpath_some (dirname devname : CStr) :
    assembleDevpath dirname (some devname) = keepShort (dirname ++ '/' :: devname) := by
  simp only [assembleDevpath, keepShort, fmtStr]
  split_ifs with h
  · rfl
  · rw [snprintf_of_lt (by omega)]

/-- A devpath the table keeps only while it fits is the one the handler formats, and it fits. -/
theorem routed_keepShort (p : CStr) (f : CStr → List FsOp) :
    ((keepShort p).map fun d => (f d, d)).map Prod.snd = keepShort p ∧
      ∀ d ∈ keepShort p, d.length < devpathLen := by
  unfold keepShort
  split_ifs with hp
  · exact ⟨rfl, by simp⟩
  · exact ⟨rfl, by simpa using hp⟩

/-- A devpath on a fixed base that fits its buffer is formatted in full. -/
theorem routed_of_fits (ops : List FsOp) {p : CStr} (h : p.length < devpathLen) :
    (some (ops, snprintf devpathLen p)).map Prod.snd = some p ∧
      ∀ d ∈ some p, d.length < devpathLen :=
  ⟨by rw [snprintf_of_lt h]; rfl, by simpa using h⟩

/-- **The routing.** For a node name of at most 64 characters and an `int` minor number that is
not negative, the devpath `handle_generic_device_event` builds is the routing table's, and every
devpath of the table fits its 96-byte buffer, given that a `subsystem` section naming its nodes
after `DEVNAME` only meets events that carry one. -/
theorem genericDevpath_routed (find : CStr → Option UeventdSubsystem) (v : UeventView)
    {name : CStr} (hname : name.length ≤ 64) (hminor : 0 ≤ v.minor) (hint : v.minor ≤ intMax)
    (hdevname : ∀ sub, find v.subsystem = some sub → sub.devnameSrc = .devname →
      v.deviceName ≠ none) :
    (genericDevpath find v name).map Prod.snd = routedDevpath find v name ∧
      ∀ d ∈ routedDevpath find v name, d.length < devpathLen := by
  unfold genericDevpath routedDevpath
  rw [← zeroPad3_eq_pad3, ← subsystemBase_eq_routedBase]
  rcases hfind : find v.subsystem with _ | sub
  · dsimp only
    by_cases husb : "usb".toList <+: v.subsystem
    · rw [if_pos husb]
      by_cases hx : v.subsystem = "usb".toList ∨ v.subsystem = "usbmisc".toList
      · rw [if_pos hx, if_pos hx]
        rcases hdn : v.deviceName with _ | dn
        · have hlen : ("/dev/bus/usb/".toList ++ zeroPad3 (v.minor.toNat / 128 + 1) ++ '/' ::
              zeroPad3 (v.minor.toNat % 128 + 1)).length < devpathLen := by
            have := usbBusPath_length v.minor.toNat (by simp [intMax] at hint; omega)
            unfold devpathLen
            omega
          exact routed_of_fits _ hlen
        · dsimp only
          rw [assembleDevpath_some, show "/dev".toList ++ '/' :: dn = "/dev/".toList ++ dn from rfl]
          exact routed_keepShort _ _
      · rw [if_neg hx, if_neg hx, if_pos husb]
        exact ⟨rfl, by simp⟩
    · have hx : ¬ (v.subsystem = "usb".toList ∨ v.subsystem = "usbmisc".toList) := by
        rintro (h | h) <;> rw [h] at husb <;> exact husb (by decide)
      rw [if_neg husb, if_neg hx, if_neg husb]
      rcases hb : subsystemBase v.subsystem with _ | base
      · dsimp only
        split_ifs with hlog
        · have hlen : ("/dev/log/".toList ++ name.drop 4).length < devpathLen := by
            simp [devpathLen]; omega
          exact routed_of_fits _ hlen
        · have hlen : ("/dev/".toList ++ name).length < devpathLen := by simp [devpathLen]; omega
          exact routed_of_fits _ hlen
      · have hbase := subsystemBase_length hb
        have hlen : (base ++ name).length < devpathLen := by simp [devpathLen] at hbase ⊢; omega
        exact routed_of_fits _ hlen
  · dsimp only
    cases hsrc : sub.devnameSrc
    · exact ⟨rfl, by simp⟩
    · obtain ⟨dn, hdn⟩ := Option.ne_none_iff_exists'.mp (hdevname sub hfind hsrc)
      simp only [hdn, Option.some_bind, assembleDevpath_some]
      exact routed_keepShort _ _
    · simp only [Option.some_bind, assembleDevpath_some]
      exact routed_keepShort _ _

theorem parseDeviceName_eq {v : UeventView} {len : Nat} (hmajor : 0 ≤ v.major)
    (hminor : 0 ≤ v.minor) (hslash : '/' ∈ v.path) (hname : (afterLast '/' v.path).length ≤ len) :
    parseDeviceName v len = some (afterLast '/' v.path) := by
  simp [parseDeviceName, hslash, not_lt.mpr hmajor, not_lt.mpr hminor, not_lt.mpr hname]

theorem parseDeviceName_length {v : UeventView} {len : Nat} {name : CStr}
    (h : parseDeviceName v len = some name) : name.length ≤ len := by
  unfold parseDeviceName at h
  split_ifs at h with h1 h2 h3
  cases h
  omega

/-- **The generic devpath.** For every event with a device number, whose devpath's last segment
has at most 64 characters, and every table of `subsystem` sections in which a section naming its
nodes after `DEVNAME` only meets events that carry one, `handle_generic_device_event` returns
and passes to `handle_device` exactly the devpath of the routing table, or drops the event where
the table does; every devpath of the table is built in full, shorter than its 96-byte buffer. -/
theorem handle_generic_device_event_devpath (reg : List PlatformNode)
    (find : CStr → Option UeventdSubsystem) (alloc : LinkAlloc) (v : UeventView)
    (hmajor : 0 ≤ v.major) (hminor : 0 ≤ v.minor) (hint : v.minor ≤ intMax)
    (hslash : '/' ∈ v.path) (hname : (afterLast '/' v.path).length ≤ 64)
    (hdevname : ∀ sub, find v.subsystem = some sub → sub.devnameSrc = .devname →
      v.deviceName ≠ none) :
    ∃ pre call, genericDeviceCall reg find alloc v = some (pre, call) ∧
      call.map DeviceCall.devpath = routedDevpath find v (afterLast '/' v.path) ∧
      ∀ d ∈ routedDevpath find v (afterLast '/' v.path), d.length < devpathLen := by
  obtain ⟨hroute, hlen⟩ := genericDevpath_routed find v hname hminor hint hdevname
  obtain ⟨links, made, -, hsym, -⟩ := getCharacterDeviceSymlinks_linksOf reg alloc v
  have hparse := parseDeviceName_eq hmajor hminor hslash hname
  rcases hg : genericDevpath find v (afterLast '/' v.path) with _ | ⟨dirOps, devpath⟩ <;>
    rw [hg] at hroute
  · exact ⟨[], none, by simp only [genericDeviceCall, hparse, hg], by rw [← hroute]; rfl, hlen⟩
  · exact ⟨dirOps ++ if made then [.mkdir "/dev/usb".toList] else [], some ⟨devpath, false, links⟩,
      by simp only [genericDeviceCall, hparse, hg, hsym, Option.map_some'],
      by rw [← hroute]; rfl, hlen⟩

theorem handle_generic_device_event_devpath_input_event :
    let v : UeventView := ⟨"add".toList, "/devices/virtual/input/input3/event0".toList,
      "input".toList, [], none, none, none, -1, 13, 64⟩
    ∃ pre call, genericDeviceCall [] (fun _ => none) ⟨true, true, true, true, true⟩ v =
        some (pre, call) ∧
      call.map DeviceCall.devpath = routedDevpath (fun _ => none) v (afterLast '/' v.path) ∧
      ∀ d ∈ routedDevpath (fun _ => none) v (afterLast '/' v.path), d.length < devpathLen :=
  handle_generic_device_event_devpath [] (fun _ => none) ⟨true, true, true, true, true⟩ _
    (by decide) (by decide) (by decide) (by decide) (by decide) fun _ h => Option.noConfusion h

/-- **`(null)` in a devpath.** When the `subsystem` section of an event's subsystem names its
nodes after `DEVNAME` and the event carries none, `handle_generic_device_event` does not drop
it: `assemble_devpath` formats the `NULL` name as `(null)`, and an `add` creates the node
`<dirname>/(null)`. -/
theorem generic_device_event_null_devname (fnmatch : Fnmatch) (st : PermStore)
    (reg : List PlatformNode) (find : CStr → Option UeventdSubsystem) (env : NodeEnv)
    (v : UeventView) (c : Creds) (sub : UeventdSubsystem) {context : CStr}
    (hsub : find v.subsystem = some sub) (hsrc : sub.devnameSrc = .devname)
    (hnodev : v.deviceName = none) (hmajor : 0 ≤ v.major) (hminor : 0 ≤ v.minor)
    (hslash : '/' ∈ v.path) (hname : (afterLast '/' v.path).length ≤ 64)
    (hfit : (sub.dirname ++ "/(null)".toList).length < devpathLen)
    (hadd : v.action = "add".toList) (hlabel : env.label = some context) :
    (∃ pre call, genericDeviceCall reg find env.alloc v = some (pre, some call) ∧
      call.devpath = sub.dirname ++ "/(null)".toList) ∧
    ∃ r, handleGenericDeviceEvent fnmatch st reg find env v c = some r ∧
      ∃ mode egid, FsOp.mknod (sub.dirname ++ "/(null)".toList) mode v.major v.minor egid
        (some context) ∈ r.2 := by
  have hg : genericDevpath find v (afterLast '/' v.path) = some
      ([.mkdirRecursive (dirOf (sub.dirname ++ "/(null)".toList))],
        sub.dirname ++ "/(null)".toList) := by
    have hnull : sub.dirname ++ '/' :: fmtStr none = sub.dirname ++ "/(null)".toList := rfl
    simp only [genericDevpath, hsub, hsrc, hnodev, Option.some_bind, assembleDevpath, hnull,
      snprintf_of_lt hfit, if_neg (Nat.not_le.mpr hfit), Option.map_some']
  obtain ⟨links, made, ls, hsym, hls⟩ := getCharacterDeviceSymlinks_linksOf reg env.alloc v
  have hcall : genericDeviceCall reg find env.alloc v = some
      ([.mkdirRecursive (dirOf (sub.dirname ++ "/(null)".toList))] ++
        if made then [.mkdir "/dev/usb".toList] else [],
        some ⟨sub.dirname ++ "/(null)".toList, false, links⟩) := by
    rw [genericDeviceCall, parseDeviceName_eq hmajor hminor hslash hname]
    simp only [hg, hsym, Option.map_some']
  refine ⟨⟨_, _, hcall, rfl⟩, ?_⟩
  obtain ⟨mode, egid, hmk⟩ := makeDevice_mknod fnmatch st hlabel (sub.dirname ++ "/(null)".toList)
    false v.major v.minor ls c
  refine ⟨_, by rw [handleGenericDeviceEvent, hcall, Option.some_bind, runDeviceCall,
    handleDevice_add fnmatch st hls hadd]; rfl, mode, egid, ?_⟩
  exact List.mem_append_right _ (List.mem_append_left _ hmk)

theorem generic_device_event_null_devname_foo :
    let find : CStr → Option UeventdSubsystem := fun s =>
      if s = "foo".toList then some ⟨"/dev/foo".toList, .devname⟩ else none
    let v : UeventView := ⟨"add".toList, "/devices/virtual/foo/foo0".toList, "foo".toList, [],
      none, none, none, -1, 10, 1⟩
    let env : NodeEnv := ⟨some "u:object_r:device:s0".toList, false, ⟨true, true, true, true, true⟩,
      false⟩
    ∃ r, handleGenericDeviceEvent literalFnmatch .empty [] find env v ⟨aidRoot, none⟩ = some r ∧
      ∃ mode egid, FsOp.mknod "/dev/foo/(null)".toList mode 10 1 egid
        (some "u:object_r:device:s0".toList) ∈ r.2 :=
  (generic_device_event_null_devname literalFnmatch .empty [] _ _ _ _ ⟨"/dev/foo".toList, .devname⟩
    rfl rfl rfl (by decide) (by decide) (by decide) (by decide) (by decide) rfl rfl).2

/-! ## A block device on `add` -/

/-- On an `add` below `/devices/` whose node is named and whose device is named with its slots
allocated, `handle_block_device_event` links every link of `blockLinks`, in the directory
`link_path` holds, to the node `/dev/block/<name>`. -/
theorem handleBlockDeviceEvent_add (fnmatch : Fnmatch) (st : PermStore) {reg : List PlatformNode}
    {env : NodeEnv} {v : UeventView} {name type device : CStr}
    (hname : parseDeviceName v 64 = some name) (hdev : "/devices/".toList <+: v.path)
    (hbd : blockDevice reg v.path = some (type, device)) (hslots : env.alloc.slots = true)
    (hadd : v.action = "add".toList) (c : Creds) :
    ∃ r, handleBlockDeviceEvent fnmatch st reg env v c = some r ∧
      ∀ l ∈ blockLinks env.alloc v (snprintf 256 ("/dev/block/".toList ++ type ++ '/' :: device)),
        FsOp.makeLinkInit ("/dev/block/".toList ++ name) l ∈ r.2 := by
  set D := snprintf 256 ("/dev/block/".toList ++ type ++ '/' :: device)
  have hdevpath : snprintf devpathLen ("/dev/block/".toList ++ name) = "/dev/block/".toList ++ name :=
    snprintf_of_lt (by have := parseDeviceName_length hname; simp [devpathLen]; omega)
  have hcall : blockDeviceCall reg env.alloc v = ([.makeDir "/dev/block/".toList],
      some ⟨"/dev/block/".toList ++ name, true, some (slotsOf 4 (blockLinks env.alloc v D))⟩) := by
    simp only [blockDeviceCall, hname, if_pos hdev, getBlockDeviceSymlinks_eq hbd hslots, hdevpath]
  have hls : linksOf (some (slotsOf 4 (blockLinks env.alloc v D))) =
      some (some (blockLinks env.alloc v D)) := by
    rw [linksOf, readLinks_slotsOf (blockLinks_length_lt _ _ _)]; rfl
  have hrun := @handleDevice_add fnmatch st env _ ("/dev/block/".toList ++ name) true v.major v.minor
    _ _ hls hadd c
  exact ⟨_, by rw [handleBlockDeviceEvent, hcall]; exact congrArg _ hrun,
    fun l hl => List.mem_append_right _ (List.mem_append_right _ (List.mem_map.mpr ⟨l, hl, rfl⟩))⟩

/-- **Truncated block links.** `get_block_device_symlinks` formats `/dev/block/<type>/<device>`
into the 256-byte `link_path` and never looks at the length `snprintf` returns. On an `add`
whose devpath lies below `/devices/`, once its device is named, `make_link_init` is handed the
link by the devpath's last segment in the directory cut to 255 characters; when the directory
has 256 characters or more that is not the link the construction denotes, and the event is not
dropped. -/
theorem block_links_truncated (fnmatch : Fnmatch) (st : PermStore) (reg : List PlatformNode)
    (env : NodeEnv) (v : UeventView) (c : Creds) {name type device : CStr}
    (hname : parseDeviceName v 64 = some name) (hdev : "/devices/".toList <+: v.path)
    (hbd : blockDevice reg v.path = some (type, device)) (hslots : env.alloc.slots = true)
    (hleaf : env.alloc.leaf = true) (hadd : v.action = "add".toList) :
    ∃ r, handleBlockDeviceEvent fnmatch st reg env v c = some r ∧
      FsOp.makeLinkInit ("/dev/block/".toList ++ name)
        (("/dev/block/".toList ++ type ++ '/' :: device).take 255 ++ '/' :: afterLast '/' v.path)
        ∈ r.2 ∧
      (256 ≤ ("/dev/block/".toList ++ type ++ '/' :: device).length →
        ("/dev/block/".toList ++ type ++ '/' :: device).take 255 ++ '/' :: afterLast '/' v.path ≠
          "/dev/block/".toList ++ type ++ '/' :: device ++ '/' :: afterLast '/' v.path) := by
  obtain ⟨r, hr, hlinks⟩ := handleBlockDeviceEvent_add fnmatch st hname hdev hbd hslots hadd c
  refine ⟨r, hr, hlinks _ (by simp [blockLinks, hleaf, snprintf]), fun hlong heq => ?_⟩
  generalize "/dev/block/".toList ++ type ++ '/' :: device = L at hlong heq
  have := congrArg List.length heq
  simp only [List.length_append, List.length_cons, List.length_take] at this
  omega

theorem block_links_truncated_pci :
    let v : UeventView := ⟨"add".toList, "/devices/".toList ++
      ("pci0000:00".toList ++ '/' :: List.replicate 239 'a' ++ '/' :: "sda".toList),
      "block".toList, [], none, none, none, -1, 8, 0⟩
    256 ≤ ("/dev/block/".toList ++ "pci".toList ++
        '/' :: ("pci0000:00".toList ++ '/' :: List.replicate 239 'a')).length ∧
    ∃ r, handleBlockDeviceEvent literalFnmatch .empty [] ⟨none, false, ⟨true, true, true, true, true⟩,
        false⟩ v ⟨aidRoot, none⟩ = some r ∧
      FsOp.makeLinkInit ("/dev/block/".toList ++ "sda".toList)
        (("/dev/block/".toList ++ "pci".toList ++
          '/' :: ("pci0000:00".toList ++ '/' :: List.replicate 239 'a')).take 255 ++
          '/' :: afterLast '/' v.path) ∈ r.2 := by
  intro v
  have hsplit : v.path = ("/devices/".toList ++ ("pci0000:00".toList ++ '/' ::
      List.replicate 239 'a')) ++ '/' :: "sda".toList := (List.append_assoc _ _ _).symm
  have hleaf : afterLast '/' v.path = "sda".toList := by
    rw [hsplit]; exact afterLast_append_cons (by decide) _
  have hslash : '/' ∈ v.path := hsplit ▸ List.mem_append_right _ (List.mem_cons_self _ _)
  have hpre : PciPrefix v.path ("pci0000:00".toList ++ '/' :: List.replicate 239 'a') :=
    pciPrefix_of_segments _ (by decide) (by decide) (by simp only [List.mem_replicate]; decide)
  have hlen : ("pci0000:00".toList ++ '/' :: List.replicate 239 'a').length = 250 := by
    rw [List.length_append, List.length_cons, List.length_replicate]; rfl
  have hbd := @blockDevice_of_pciPrefix [] _ _ rfl hpre (by omega)
  refine ⟨by simp only [List.length_append, List.length_cons, hlen]; decide, ?_⟩
  obtain ⟨r, hr, hmem, -⟩ := block_links_truncated literalFnmatch .empty []
    ⟨none, false, ⟨true, true, true, true, true⟩, false⟩ v ⟨aidRoot, none⟩
    (by rw [parseDeviceName_eq (by decide) (by decide) hslash (by rw [hleaf]; decide), hleaf])
    (List.prefix_append _ _) hbd rfl rfl rfl
  exact ⟨r, hr, hmem⟩

/-- **The by-name link of a platform partition.** On every `add` of a block device below
`/devices/` whose node is named, that lies below a platform device `P` of the registry and
carries a partition name `N`, `handle_block_device_event` links
`/dev/block/platform/<P's name>/by-name/<sanitize N>` to the node `/dev/block/<leaf>`, whatever
the outcome of the node's own calls, when the array and that link are allocated and the link
directory fits `link_path`. -/
theorem block_add_links_by_name (fnmatch : Fnmatch) (st : PermStore) (reg : List PlatformNode)
    (env : NodeEnv) (v : UeventView) (c : Creds) {P : PlatformNode} {N : CStr}
    (hadd : v.action = "add".toList) (hdev : "/devices/".toList <+: v.path)
    (hmajor : 0 ≤ v.major) (hminor : 0 ≤ v.minor) (hleaf : (afterLast '/' v.path).length ≤ 64)
    (hP : findPlatformDevice reg v.path = some P) (hN : v.partitionName = some N)
    (hslots : env.alloc.slots = true) (hbyName : env.alloc.byName = true)
    (hfit : ("/dev/block/platform/".toList ++ P.name).length < 256) :
    ∃ r, handleBlockDeviceEvent fnmatch st reg env v c = some r ∧
      FsOp.makeLinkInit ("/dev/block/".toList ++ afterLast '/' v.path)
        ("/dev/block/platform/".toList ++ P.name ++ "/by-name/".toList ++ sanitize N) ∈ r.2 := by
  have hslash : '/' ∈ v.path := by
    obtain ⟨t, ht⟩ := hdev
    exact ht ▸ List.mem_append_left _ (by decide)
  obtain ⟨r, hr, hlinks⟩ := handleBlockDeviceEvent_add fnmatch st
    (parseDeviceName_eq hmajor hminor hslash hleaf) hdev (blockDevice_of_platform hP) hslots hadd c
  have hdir : "/dev/block/".toList ++ "platform".toList ++ '/' :: P.name =
      "/dev/block/platform/".toList ++ P.name := rfl
  refine ⟨r, hr, hlinks _ ?_⟩
  rw [hdir, snprintf_of_lt hfit]
  simp [blockLinks, hN, hbyName]

theorem block_add_links_by_name_soc :
    let reg := addPlatformDevice "/devices/platform/soc.0".toList []
    let v : UeventView := ⟨"add".toList, "/devices/platform/soc.0/by.pci/mmcblk0p3".toList,
      "block".toList, [], some "system".toList, none, none, 3, 179, 3⟩
    ∃ r, handleBlockDeviceEvent literalFnmatch .empty reg
        ⟨some "u:object_r:block_device:s0".toList, false, ⟨true, true, true, true, true⟩, false⟩ v
        ⟨aidRoot, none⟩ = some r ∧
      FsOp.makeLinkInit "/dev/block/mmcblk0p3".toList
        "/dev/block/platform/soc.0/by-name/system".toList ∈ r.2 :=
  @block_add_links_by_name literalFnmatch .empty _ _ _ ⟨aidRoot, none⟩
    ⟨platformName "/devices/platform/soc.0".toList, "/devices/platform/soc.0".toList, _, rfl, rfl⟩
    "system".toList rfl (by decide) (by decide) (by decide) (by decide) rfl rfl rfl rfl (by decide)

/-! ## USB bus nodes -/

theorem digitsValue_zeros (k : Nat) (s : CStr) :
    digitsValue 0 (List.replicate k '0' ++ s) = digitsValue 0 s := by
  induction k with
  | zero => rfl
  | succ k ih => simpa [List.replicate_succ, digitsValue] using ih

/-- `%03d` reads back: the padding zeros add nothing. -/
theorem digitsValue_zeroPad3 (n : Nat) : digitsValue 0 (zeroPad3 n) = n := by
  obtain ⟨-, -, -, -, -, -, -, hval⟩ := natDigits_spec n
  rw [zeroPad3, digitsValue_zeros, hval]

theorem zeroPad3_inj {a b : Nat} (h : zeroPad3 a = zeroPad3 b) : a = b := by
  rw [← digitsValue_zeroPad3 a, h, digitsValue_zeroPad3]

theorem slash_not_mem_zeroPad3 (n : Nat) : '/' ∉ zeroPad3 n := by
  intro h
  rcases List.mem_append.mp h with h | h
  · exact absurd (List.eq_of_mem_replicate h) (by decide)
  · unfold natDigits at h
    split at h
    · exact absurd (List.mem_singleton.mp h) (by decide)
    · obtain ⟨d, hd, hd'⟩ := List.mem_map.mp h
      have hdig := (decDigit_spec d (Nat.digits_lt_base (by norm_num) (List.mem_reverse.mp hd))).1
      rw [hd'] at hdig
      exact absurd hdig (by decide)

/-- The `/dev/bus/usb/BBB/DDD` path names the minor number: the bus is `minor / 128 + 1` and the
device `minor % 128 + 1`, and the pair gives the minor back. -/
theorem usbBusPath_inj {m m' : Nat}
    (h : "/dev/bus/usb/".toList ++ zeroPad3 (m / 128 + 1) ++ '/' :: zeroPad3 (m % 128 + 1) =
      "/dev/bus/usb/".toList ++ zeroPad3 (m' / 128 + 1) ++ '/' :: zeroPad3 (m' % 128 + 1)) :
    m = m' := by
  rw [List.append_assoc, List.append_assoc, List.append_cancel_left_eq] at h
  obtain ⟨hbus, hdev⟩ := append_cons_inj_of_not_mem (slash_not_mem_zeroPad3 _)
    (slash_not_mem_zeroPad3 _) h
  have := zeroPad3_inj hbus
  have := zeroPad3_inj hdev
  omega

/-- A `usb` or `usbmisc` event with no `ueventd.rc` section and no `DEVNAME` gets the
`/dev/bus/usb` node of its minor number, formatted in full. -/
theorem genericDevpath_usbBus {find : CStr → Option UeventdSubsystem} {v : UeventView}
    (name : CStr) (hfind : find v.subsystem = none)
    (husb : v.subsystem = "usb".toList ∨ v.subsystem = "usbmisc".toList)
    (hdn : v.deviceName = none) (hminor : v.minor ≤ intMax) :
    (genericDevpath find v name).map Prod.snd = some ("/dev/bus/usb/".toList ++
      zeroPad3 (v.minor.toNat / 128 + 1) ++ '/' :: zeroPad3 (v.minor.toNat % 128 + 1)) := by
  have hpre : "usb".toList <+: v.subsystem := by
    rcases husb with h | h
    · exact h ▸ List.prefix_refl _
    · exact h ▸ ⟨"misc".toList, rfl⟩
  have hlen := usbBusPath_length v.minor.toNat (by simp [intMax] at hminor; omega)
  simp only [genericDevpath, hfind, if_pos hpre, if_pos husb, hdn, Option.map_some']
  rw [snprintf_of_lt (by unfold devpathLen; omega)]

/-- **USB bus nodes do not collide.** Two `usb` or `usbmisc` events that no `ueventd.rc` section
claims and that carry no `DEVNAME` get the same `/dev/bus/usb/BBB/DDD` node exactly when their
minor numbers, `int`s that are not negative, are equal. -/
theorem usb_bus_nodes_distinct {find : CStr → Option UeventdSubsystem} {v w : UeventView}
    (name name' : CStr) (hv : find v.subsystem = none) (hw : find w.subsystem = none)
    (husbv : v.subsystem = "usb".toList ∨ v.subsystem = "usbmisc".toList)
    (husbw : w.subsystem = "usb".toList ∨ w.subsystem = "usbmisc".toList)
    (hdv : v.deviceName = none) (hdw : w.deviceName = none)
    (hmv : 0 ≤ v.minor ∧ v.minor ≤ intMax) (hmw : 0 ≤ w.minor ∧ w.minor ≤ intMax) :
    (genericDevpath find v name).map Prod.snd = (genericDevpath find w name').map Prod.snd ↔
      v.minor = w.minor := by
  rw [genericDevpath_usbBus name hv husbv hdv hmv.2, genericDevpath_usbBus name' hw husbw hdw hmw.2,
    Option.some.injEq]
  constructor
  · intro h
    have := usbBusPath_inj h
    omega
  · intro h
    rw [h]

theorem usb_bus_nodes_distinct_two_buses :
    let v : UeventView := ⟨"add".toList, "/devices/pci0000:00/usb1/1-1".toList, "usb".toList, [],
      none, none, none, -1, 189, 5⟩
    let w : UeventView := { v with path := "/devices/pci0000:00/usb2/2-1".toList, minor := 133 }
    (fun _ => none : CStr → Option UeventdSubsystem) v.subsystem = none ∧
    (fun _ => none : CStr → Option UeventdSubsystem) w.subsystem = none ∧
    (v.subsystem = "usb".toList ∨ v.subsystem = "usbmisc".toList) ∧
    (w.subsystem = "usb".toList ∨ w.subsystem = "usbmisc".toList) ∧
    v.deviceName = none ∧ w.deviceName = none ∧
    (0 ≤ v.minor ∧ v.minor ≤ intMax) ∧ (0 ≤ w.minor ∧ w.minor ≤ intMax) ∧
    ((genericDevpath (fun _ => none) v "1-1".toList).map Prod.snd =
        (genericDevpath (fun _ => none) w "2-1".toList).map Prod.snd ↔ v.minor = w.minor) := by
  intro v w
  have hm : (0 ≤ v.minor ∧ v.minor ≤ intMax) ∧ (0 ≤ w.minor ∧ w.minor ≤ intMax) := by decide
  exact ⟨rfl, rfl, .inl rfl, .inl rfl, rfl, rfl, hm.1, hm.2,
    usb_bus_nodes_distinct _ _ rfl rfl (.inl rfl) (.inl rfl) rfl rfl hm.1 hm.2⟩

end Ueventd
