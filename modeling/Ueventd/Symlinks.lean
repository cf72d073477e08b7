/-
# Ueventd.Symlinks — the links of block devices and of USB character devices

`get_block_device_symlinks` names a block device after the platform device it sits below, or
after the PCI domain/bus and peripheral id its devpath begins with, and builds up to three links
in that directory: by partition name, by partition number and by the devpath's last segment.
`get_character_device_symlinks` walks the devpath of a character device below a platform device
by hand, past `/usb…` and one more segment, and links the segment after them under `/dev/usb/`.

Both return a `malloc`ed array that `handle_device` reads up to its first `NULL` slot. The model
keeps the slots, so that the terminator is a proved fact and not a property of a list type; a
link whose `asprintf` fails leaves its slot to the next one. The hand-written walk reads the
devpath at an index: a character, the terminator at the devpath's length, a fault past it.

The block directory is formatted into the 256-byte `link_path` with `snprintf` and used without
looking at the length the call returns: a platform name or PCI prefix long enough gives links in
a truncated directory (`getBlockDeviceSymlinks_eq`).
-/
import Ueventd.Platform
import Ueventd.Uevent

namespace Ueventd

/-! ## The slot array -/

/-- The outcome of each allocation a symlink builder makes, `true` for success: the `malloc` of
the slot array, then the `asprintf` of each link. -/
structure LinkAlloc where
  slots : Bool
  byName : Bool
  byNum : Bool
  leaf : Bool
  usb : Bool
  deriving DecidableEq, Repr

/-- `if (asprintf(&links[link_num], …) > 0) link_num++; else links[link_num] = NULL;` on the
array and `link_num`. -/
def pushLink (ok : Bool) (link : CStr) (acc : List (Option CStr) × Nat) :
    List (Option CStr) × Nat :=
  if ok then (acc.1.set acc.2 (some link), acc.2 + 1) else (acc.1.set acc.2 none, acc.2)

/-- An array of `n` slots holding `links` and then `NULL`s. -/
def slotsOf (n : Nat) (links : List CStr) : List (Option CStr) :=
  links.map some ++ List.replicate (n - links.length) none

/-- `for (i = 0; links[i]; i++)`: the links before the first `NULL` slot; `none` when the loop
would run past the end of the array. -/
def readLinks : List (Option CStr) → Option (List CStr)
  | [] => none
  | none :: _ => some []
  | some l :: slots => (readLinks slots).map (l :: ·)

@[simp] theorem slotsOf_cons (n : Nat) (l : CStr) (links : List CStr) :
    slotsOf (n + 1) (l :: links) = some l :: slotsOf n links := by
  simp [slotsOf]

/-- An array with a slot to spare reads back as exactly its links. -/
theorem readLinks_slotsOf {n : Nat} {links : List CStr} (h : links.length < n) :
    readLinks (slotsOf n links) = some links := by
  induction links generalizing n with
  | nil =>
    obtain ⟨k, rfl⟩ : ∃ k, n = k + 1 := ⟨n - 1, by simp at h; omega⟩
    rfl
  | cons l links ih =>
    obtain ⟨k, rfl⟩ : ∃ k, n = k + 1 := ⟨n - 1, by simp at h; omega⟩
    simp only [List.length_cons, Nat.add_lt_add_iff_right] at h
    rw [slotsOf_cons, readLinks, ih h]
    rfl

/-- One `asprintf` into an array of links with a slot to spare: the link goes into the first
`NULL` slot, or the array is unchanged. -/
theorem pushLink_slotsOf {n i : Nat} {links : List CStr} (h : links.length < n)
    (hi : i = links.length) (ok : Bool) (link : CStr) :
    pushLink ok link (slotsOf n links, i) =
      (slotsOf n (links ++ if ok then [link] else []), i + if ok then 1 else 0) := by
  subst hi
  obtain ⟨k, rfl⟩ : ∃ k, n = links.length + k + 1 := ⟨n - links.length - 1, by omega⟩
  have hset : ∀ x : Option CStr, (slotsOf (links.length + k + 1) links).set links.length x =
      links.map some ++ x :: List.replicate k none := fun x => by
    rw [slotsOf, List.set_append_right _ _ (by simp)]
    simp [show links.length + k + 1 - links.length = k + 1 by omega, List.replicate_succ]
  cases ok
  · simp only [pushLink, hset, Bool.false_eq_true, if_false, List.append_nil]
    simp [slotsOf, show links.length + k + 1 - links.length = k + 1 by omega, List.replicate_succ]
  · simp only [pushLink, hset, if_true]
    simp [slotsOf, show links.length + k + 1 - (links.length + 1) = k by omega]

/-! ## Block devices -/

/-- `find_pci_device_prefix(path, buf, buf_sz)`: the PCI domain/bus and peripheral id after
`/devices/`, up to the second `/` after it, when they fit `buf_sz` bytes with their
terminator. -/
def findPciDevicePrefix (path : CStr) (bufSz : Nat) : Option CStr :=
  if "/devices/pci".toList <+: path then
    match strchr '/' (path.drop 9) with
    | none => none
    | some e1 =>
      match strchrFrom (path.drop 9) (e1 + 1) '/' with
      | none => none
      | some e2 => if e2 + 1 > bufSz then none else some ((path.drop 9).take e2)
  else none

/-- Modelled from the spec: `sanitize` is defined in `util.cpp`, which is not part of the
sources modelled here; the description says it replaces every byte outside `[A-Za-z0-9._-]` with
`_`. -/
def sanitize (s : CStr) : CStr :=
  s.map fun c => if c.isAlphanum || c == '.' || c == '_' || c == '-' then c else '_'

/-- The `type` and `device` of `get_block_device_symlinks`: the platform device above the
devpath, else the PCI prefix it begins with. -/
def blockDevice (reg : List PlatformNode) (path : CStr) : Option (CStr × CStr) :=
  match findPlatformDevice reg path with
  | some pdev => some ("platform".toList, pdev.name)
  | none => (findPciDevicePrefix path 256).map fun buf => ("pci".toList, buf)

/-- `get_block_device_symlinks(uevent)`: `NULL`, or the four slots of the array. The caller
only passes devpaths that begin with `/devices/`, so the `strrchr` for the last segment finds a
`/`. -/
def getBlockDeviceSymlinks (reg : List PlatformNode) (alloc : LinkAlloc) (v : UeventView) :
    Option (List (Option CStr)) :=
  match blockDevice reg v.path with
  | none => none
  | some (type, device) =>
    if !alloc.slots then none else
    let linkPath := snprintf 256 ("/dev/block/".toList ++ type ++ '/' :: device)
    let acc : List (Option CStr) × Nat := (List.replicate 4 none, 0)
    let acc := match v.partitionName with
      | some name => pushLink alloc.byName (linkPath ++ "/by-name/".toList ++ sanitize name) acc
      | none => acc
    let acc := if 0 ≤ v.partitionNum then
        pushLink alloc.byNum (linkPath ++ "/by-num/p".toList ++ decimal v.partitionNum) acc
      else acc
    some (pushLink alloc.leaf (linkPath ++ '/' :: afterLast '/' v.path) acc).1

/-- The links of a block device in the directory `dir`, in the order they are built: by name
when the event has a `PARTNAME`, by number when `PARTN` is not negative, and by the devpath's
last segment; a link whose `asprintf` fails is left out. -/
def blockLinks (alloc : LinkAlloc) (v : UeventView) (dir : CStr) : List CStr :=
  (match v.partitionName with
    | some name => if alloc.byName then [dir ++ "/by-name/".toList ++ sanitize name] else []
    | none => []) ++
  (if 0 ≤ v.partitionNum ∧ alloc.byNum then [dir ++ "/by-num/p".toList ++ decimal v.partitionNum]
    else []) ++
  (if alloc.leaf then [dir ++ '/' :: afterLast '/' v.path] else [])

theorem blockLinks_length_lt (alloc : LinkAlloc) (v : UeventView) (dir : CStr) :
    (blockLinks alloc v dir).length < 4 := by
  unfold blockLinks
  split <;> simp only [List.length_append] <;> split_ifs <;> simp

/-- **What the block builder returns.** Once a device is named, the array holds the links of
`blockLinks` in the directory as `snprintf` left it in `link_path`, then `NULL`s. -/
theorem getBlockDeviceSymlinks_eq {reg : List PlatformNode} {v : UeventView} {type device : CStr}
    (hdev : blockDevice reg v.path = some (type, device)) {alloc : LinkAlloc}
    (hslots : alloc.slots = true) :
    getBlockDeviceSymlinks reg alloc v = some (slotsOf 4
      (blockLinks alloc v (snprintf 256 ("/dev/block/".toList ++ type ++ '/' :: device)))) := by
  have h0 : (List.replicate 4 none : List (Option CStr)) = slotsOf 4 [] := rfl
  simp only [getBlockDeviceSymlinks, hdev, hslots, Bool.not_true, Bool.false_eq_true, if_false, h0]
  generalize snprintf 256 ("/dev/block/".toList ++ type ++ '/' :: device) = dir
  rcases hname : v.partitionName with _ | name <;> by_cases hnum : 0 ≤ v.partitionNum <;>
    simp (disch := first | (split_ifs <;> simp) | simp) only [hnum, if_true, if_false,
      pushLink_slotsOf] <;>
    simp [blockLinks, hname, hnum]

/-! ## The PCI prefix -/

/-- The PCI prefix of a devpath in the words of the block-link description: the devpath begins
with `/devices/pci`, and `pre` is what follows `/devices/` up to the second `/` after it. -/
def PciPrefix (path pre : CStr) : Prop :=
  "/devices/pci".toList <+: path ∧ ∃ s0 s1 rest, path.drop 9 = s0 ++ '/' :: s1 ++ '/' :: rest ∧
    '/' ∉ s0 ∧ '/' ∉ s1 ∧ pre = s0 ++ '/' :: s1

theorem drop_succ_append_cons (s : CStr) (c : Char) (r : CStr) :
    (s ++ c :: r).drop (s.length + 1) = r := by
  rw [List.drop_append]; rfl

theorem take_succ_append_segments (s0 s1 rest : CStr) (c : Char) :
    (s0 ++ c :: (s1 ++ c :: rest)).take (s0.length + 1 + s1.length) = s0 ++ c :: s1 := by
  rw [show s0 ++ c :: (s1 ++ c :: rest) = (s0 ++ c :: s1) ++ c :: rest by simp]
  exact List.take_left' (by simp; omega)

/-- `find_pci_device_prefix` finds the prefix when it fits the buffer with its terminator. -/
theorem findPciDevicePrefix_eq_some {path pre : CStr} {bufSz : Nat} :
    findPciDevicePrefix path bufSz = some pre ↔ PciPrefix path pre ∧ pre.length + 1 ≤ bufSz := by
  unfold findPciDevicePrefix PciPrefix
  by_cases hpci : "/devices/pci".toList <+: path
  · simp only [hpci, if_true, true_and]
    generalize path.drop 9 = u
    constructor
    · intro h
      rcases h1 : strchr '/' u with _ | e1
      · simp [h1] at h
      obtain ⟨s0, r1, rfl, hs0, rfl⟩ := strchr_eq_some_iff.mp h1
      rcases h2 : strchr '/' r1 with _ | j
      · simp [h1, strchrFrom, drop_succ_append_cons, h2] at h
      obtain ⟨s1, rest, rfl, hs1, rfl⟩ := strchr_eq_some_iff.mp h2
      simp only [h1, strchrFrom, drop_succ_append_cons, h2, Option.map_some',
        take_succ_append_segments] at h
      split_ifs at h with hfit
      cases h
      refine ⟨⟨s0, s1, rest, by simp, hs0, hs1, rfl⟩, ?_⟩
      simp only [List.length_append, List.length_cons] at hfit ⊢
      omega
    · rintro ⟨⟨s0, s1, rest, rfl, hs0, hs1, rfl⟩, hfit⟩
      simp only [List.append_assoc, List.cons_append]
      simp only [List.length_append, List.length_cons] at hfit
      simp only [strchr_append_cons hs0, strchrFrom, drop_succ_append_cons,
        strchr_append_cons hs1, Option.map_some', take_succ_append_segments]
      rw [if_neg (by omega)]
  · rw [if_neg hpci]
    exact ⟨fun h => Option.noConfusion h, fun h => absurd h.1.1 hpci⟩

theorem findPciDevicePrefix_eq_none {path : CStr} {bufSz : Nat} :
    findPciDevicePrefix path bufSz = none ↔ ∀ pre, PciPrefix path pre → bufSz < pre.length + 1 := by
  simp only [Option.eq_none_iff_forall_not_mem, Option.mem_def, findPciDevicePrefix_eq_some,
    not_and, not_le]

/-- A devpath `/devices/pci…/<s1>/<rest>`, with its first two segments free of `/`, has the PCI
prefix `pci…/<s1>`. -/
theorem pciPrefix_of_segments {s0 s1 : CStr} (rest : CStr) (hpci : "pci".toList <+: s0)
    (hs0 : '/' ∉ s0) (hs1 : '/' ∉ s1) :
    PciPrefix ("/devices/".toList ++ (s0 ++ '/' :: s1 ++ '/' :: rest)) (s0 ++ '/' :: s1) := by
  refine ⟨?_, s0, s1, rest, List.drop_left' rfl, hs0, hs1, rfl⟩
  show "/devices/".toList ++ "pci".toList <+: _
  exact (List.prefix_append_right_inj _).mpr
    (hpci.trans ((List.prefix_append _ _).trans (List.prefix_append _ _)))

/-- Below a platform device, a block device is named after it. -/
theorem blockDevice_of_platform {reg : List PlatformNode} {path : CStr} {P : PlatformNode}
    (hP : findPlatformDevice reg path = some P) :
    blockDevice reg path = some ("platform".toList, P.name) := by
  simp [blockDevice, hP]

/-- Below no platform device, a block device is named after a PCI prefix that fits `buf`. -/
theorem blockDevice_of_pciPrefix {reg : List PlatformNode} {path pre : CStr}
    (hnone : findPlatformDevice reg path = none) (hpre : PciPrefix path pre)
    (hfit : pre.length + 1 ≤ 256) : blockDevice reg path = some ("pci".toList, pre) := by
  simp [blockDevice, hnone, findPciDevicePrefix_eq_some.mpr ⟨hpre, hfit⟩]

theorem blockDevice_eq_none {reg : List PlatformNode} {path : CStr} :
    blockDevice reg path = none ↔
      findPlatformDevice reg path = none ∧ findPciDevicePrefix path 256 = none := by
  unfold blockDevice
  split <;> simp_all

theorem getBlockDeviceSymlinks_eq_none {reg : List PlatformNode} {alloc : LinkAlloc}
    {v : UeventView} :
    getBlockDeviceSymlinks reg alloc v = none ↔
      blockDevice reg v.path = none ∨ alloc.slots = false := by
  rcases hdev : blockDevice reg v.path with _ | ⟨type, device⟩
  · simp [getBlockDeviceSymlinks, hdev]
  · cases hslots : alloc.slots
    · simp [getBlockDeviceSymlinks, hdev, hslots]
    · simp [getBlockDeviceSymlinks_eq hdev hslots]

/-- **The block links.** `get_block_device_symlinks` returns `NULL` exactly when no platform
device is above the devpath and it has no PCI prefix that fits the 256-byte buffer with its
terminator, or when the array cannot be allocated. Otherwise, with `D` the directory named after
the platform device or the PCI prefix, and whenever `D` fits `link_path` with its terminator,
the array holds the links of `blockLinks` in `D`, in order, then a `NULL` that ends the loops of
`handle_device` inside the array. -/
theorem get_block_device_symlinks_links (reg : List PlatformNode) (alloc : LinkAlloc)
    (v : UeventView) :
    (getBlockDeviceSymlinks reg alloc v = none ↔
      (findPlatformDevice reg v.path = none ∧
        ∀ pre, PciPrefix v.path pre → 256 < pre.length + 1) ∨ alloc.slots = false) ∧
    ∀ D : CStr,
      ((∃ P, findPlatformDevice reg v.path = some P ∧
          D = "/dev/block/platform/".toList ++ platformName P.path) ∨
        (findPlatformDevice reg v.path = none ∧ ∃ pre, PciPrefix v.path pre ∧
          pre.length + 1 ≤ 256 ∧ D = "/dev/block/pci/".toList ++ pre)) →
      D.length + 1 ≤ 256 → alloc.slots = true →
      getBlockDeviceSymlinks reg alloc v = some (slotsOf 4 (blockLinks alloc v D)) ∧
        readLinks (slotsOf 4 (blockLinks alloc v D)) = some (blockLinks alloc v D) := by
  refine ⟨by rw [getBlockDeviceSymlinks_eq_none, blockDevice_eq_none, findPciDevicePrefix_eq_none],
    fun D hD hfit hslots => ⟨?_, readLinks_slotsOf (blockLinks_length_lt alloc v D)⟩⟩
  have hdir : ∃ type device, blockDevice reg v.path = some (type, device) ∧
      D = "/dev/block/".toList ++ type ++ '/' :: device := by
    rcases hD with ⟨P, hP, rfl⟩ | ⟨hnone, pre, hpre, hpfit, rfl⟩
    · exact ⟨"platform".toList, P.name, blockDevice_of_platform hP, by rw [P.name_eq]; rfl⟩
    · exact ⟨"pci".toList, pre, blockDevice_of_pciPrefix hnone hpre hpfit, rfl⟩
  obtain ⟨type, device, hdev, rfl⟩ := hdir
  rw [getBlockDeviceSymlinks_eq hdev hslots, snprintf_of_lt (by omega)]

theorem get_block_device_symlinks_links_msm_sdcc :
    let reg := addPlatformDevice "/devices/platform/msm_sdcc.1".toList []
    let alloc : LinkAlloc := ⟨true, true, true, true, true⟩
    let v : UeventView := ⟨"add".toList,
      "/devices/platform/msm_sdcc.1/mmc_host/mmc0/mmc0:0001/block/mmcblk0/mmcblk0p12".toList,
      "block".toList, [], some "system".toList, none, none, 12, 179, 12⟩
    let D := "/dev/block/platform/msm_sdcc.1".toList
    (∃ P, findPlatformDevice reg v.path = some P ∧
        D = "/dev/block/platform/".toList ++ platformName P.path) ∧
      D.length + 1 ≤ 256 ∧ alloc.slots = true ∧
      getBlockDeviceSymlinks reg alloc v = some (slotsOf 4 (blockLinks alloc v D)) ∧
      readLinks (slotsOf 4 (blockLinks alloc v D)) = some (blockLinks alloc v D) ∧
      blockLinks alloc v D = [D ++ "/by-name/system".toList, D ++ "/by-num/p12".toList,
        D ++ "/mmcblk0p12".toList] := by
  intro reg alloc v D
  have hD : ∃ P, findPlatformDevice reg v.path = some P ∧
      D = "/dev/block/platform/".toList ++ platformName P.path := ⟨_, rfl, by decide⟩
  obtain ⟨hsym, hread⟩ := (get_block_device_symlinks_links reg alloc v).2 D (.inl hD) (by decide) rfl
  have hlinks : blockLinks alloc v D = [D ++ "/by-name/system".toList, D ++ "/by-num/p12".toList,
      D ++ "/mmcblk0p12".toList] := by
    simp only [blockLinks, decimal, natDigits_eq_toDigits]
    decide
  exact ⟨hD, by decide, rfl, hsym, hread, hlinks⟩

/-- A PCI prefix of 255 characters and its terminator fill `buf` exactly: it is accepted, and
the block builder returns links for it. -/
theorem get_block_device_symlinks_pci_prefix_255 :
    let v : UeventView := ⟨"add".toList, "/devices/".toList ++
      ("pci0000:00".toList ++ '/' :: List.replicate 244 'a' ++ '/' :: "sda".toList),
      "block".toList, [], none, none, none, -1, 8, 0⟩
    findPlatformDevice [] v.path = none ∧
      PciPrefix v.path ("pci0000:00".toList ++ '/' :: List.replicate 244 'a') ∧
      ("pci0000:00".toList ++ '/' :: List.replicate 244 'a').length + 1 = 256 ∧
      getBlockDeviceSymlinks [] ⟨true, true, true, true, true⟩ v ≠ none := by
  intro v
  have hpre : PciPrefix v.path ("pci0000:00".toList ++ '/' :: List.replicate 244 'a') :=
    pciPrefix_of_segments _ (by decide) (by decide) (by simp only [List.mem_replicate]; decide)
  have hlen : ("pci0000:00".toList ++ '/' :: List.replicate 244 'a').length + 1 = 256 := by
    rw [List.length_append, List.length_cons, List.length_replicate]; rfl
  refine ⟨rfl, hpre, hlen, fun h => ?_⟩
  obtain ⟨-, hnone⟩ := blockDevice_eq_none.mp ((getBlockDeviceSymlinks_eq_none.mp h).resolve_right
    (by decide))
  exact absurd (findPciDevicePrefix_eq_none.mp hnone _ hpre) (by omega)

/-! ## USB character devices -/

/-- `*p` with `p` at index `i` of the devpath `s`: a character (`some (some c)`), the terminator
at `s.length` (`some none`), or a read past the terminator (`none`). -/
def peek (s : CStr) (i : Nat) : Option (Option Char) :=
  if i ≤ s.length then some s[i]? else none

/-- `while (*++parent && *parent != '/');` with `parent` at index `i`: where the loop stops, or
`none` when it reads past the terminator. The loop moves one place a turn, so `s.length + 1`
turns of fuel are enough. -/
def skipSegment (s : CStr) : Nat → Nat → Option Nat
  | 0, _ => none
  | fuel + 1, i =>
    match peek s (i + 1) with
    | none => none
    | some none => some (i + 1)
    | some (some c) => if c = '/' then some (i + 1) else skipSegment s fuel (i + 1)

/-- The walk of `get_character_device_symlinks` from `parent`, the `/` that begins the rest of
the devpath: skip the root hub's segment, then, unless the devpath ends there, the device's;
then take the interface's segment up to the next `/`. `some none` is a `goto err`, `none` a read
past the terminator. -/
def usbInterface (s : CStr) (parent : Nat) : Option (Option CStr) :=
  match skipSegment s (s.length + 1) parent with
  | none => none
  | some p1 =>
    match (if p1 < s.length then skipSegment s (s.length + 1) p1 else some p1) with
    | none => none
    | some p2 =>
      if p2 = s.length then some none else
      match strchrFrom s (p2 + 1) '/' with
      | none => some none
      | some slash =>
        if slash - (p2 + 1) = 0 then some none
        else some (some ((s.drop (p2 + 1)).take (slash - (p2 + 1))))

/-- `get_character_device_symlinks(uevent)`: `none` when the walk reads past the devpath's
terminator; otherwise `NULL` or the two slots of the array, and whether
`mkdir("/dev/usb", 0755)` was called. -/
def getCharacterDeviceSymlinks (reg : List PlatformNode) (alloc : LinkAlloc) (v : UeventView) :
    Option (Option (List (Option CStr)) × Bool) :=
  match findPlatformDevice reg v.path with
  | none => some (none, false)
  | some pdev =>
    if !alloc.slots then some (none, false) else
    match strchrFrom v.path pdev.pathLen '/' with
    | none => some (none, false)
    | some parent =>
      if !decide ("/usb".toList <+: v.path.drop parent) then some (none, false) else
      match usbInterface v.path parent with
      | none => none
      | some none => some (none, false)
      | some (some iface) =>
        some (some (pushLink alloc.usb ("/dev/usb/".toList ++ v.subsystem ++ iface)
          (List.replicate 2 none, 0)).1, true)

theorem peek_append_cons (pre : CStr) (c : Char) (rest : CStr) :
    peek (pre ++ c :: rest) (pre.length + 1) = some rest.head? := by
  rw [peek, if_pos (by simp), List.getElem?_append_right (by omega),
    show pre.length + 1 - pre.length = 1 by omega]
  cases rest <;> simp

/-- The skip loop crosses a segment free of `/` and stops on the `/` or the terminator after
it, without reading further. -/
theorem skipSegment_append {seg : CStr} (hseg : '/' ∉ seg) (rest : CStr)
    (hrest : rest.head? = none ∨ rest.head? = some '/') (pre : CStr) (c : Char) {fuel : Nat}
    (hfuel : seg.length < fuel) :
    skipSegment (pre ++ c :: (seg ++ rest)) fuel pre.length = some (pre.length + 1 + seg.length) := by
  induction seg generalizing pre c fuel with
  | nil =>
    obtain ⟨f, rfl⟩ : ∃ f, fuel = f + 1 := ⟨fuel - 1, by simp at hfuel; omega⟩
    rcases hrest with h | h <;> simp [skipSegment, peek_append_cons, h]
  | cons x seg ih =>
    obtain ⟨f, rfl⟩ : ∃ f, fuel = f + 1 := ⟨fuel - 1, by simp at hfuel; omega⟩
    have hx : x ≠ '/' := fun h => hseg (h ▸ List.mem_cons_self _ _)
    have hnext := ih (fun h => hseg (List.mem_cons_of_mem _ h)) (pre ++ [c]) x
      (show seg.length < f by simp at hfuel; omega)
    simp only [List.append_assoc, List.singleton_append, List.length_append,
      List.length_singleton] at hnext
    simp only [List.cons_append, skipSegment, peek_append_cons, List.head?_cons, hx, if_false,
      hnext, List.length_cons, Option.some.injEq]
    omega

/-- Two splits of one string at the first `c` agree. -/
theorem append_cons_inj_of_not_mem {a b x y : CStr} {c : Char} (ha : c ∉ a) (hb : c ∉ b)
    (h : a ++ c :: x = b ++ c :: y) : a = b ∧ x = y := by
  have hlen := (strchr_append_cons ha x).symm.trans (h ▸ strchr_append_cons hb y)
  obtain ⟨rfl, hxy⟩ := List.append_inj h (Option.some.inj hlen)
  exact ⟨rfl, (List.cons.inj hxy).2⟩

/-- `u` runs `s1/s2/s3/t`, with segments `s1`, `s2` and `s3` free of `/` and `s3` not empty: the
two segments the USB walk crosses and the one it takes. -/
def UsbSegs (u s3 : CStr) : Prop :=
  ∃ s1 s2 t, u = s1 ++ '/' :: (s2 ++ '/' :: (s3 ++ '/' :: t)) ∧ '/' ∉ s1 ∧ '/' ∉ s2 ∧
    s3 ≠ [] ∧ '/' ∉ s3

/-- **The USB walk.** From the `/` that begins the rest `/u` of the devpath, the walk never reads
past the terminator, and it returns a segment `s3` exactly when `u` runs `s1/s2/s3/t`. -/
theorem usbInterface_append (pre u : CStr) :
    ∃ r, usbInterface (pre ++ '/' :: u) pre.length = some r ∧ ∀ s3, r = some s3 ↔ UsbSegs u s3 := by
  generalize hfuel : (pre ++ '/' :: u).length + 1 = fuel
  have hf := hfuel
  rcases h1 : strchr '/' u with _ | e1
  · -- one segment: the first skip stops at the terminator
    have hu := strchr_eq_none.mp h1
    simp only [List.length_append, List.length_cons] at hf
    have hp1 := skipSegment_append hu [] (Or.inl rfl) pre '/' (show u.length < fuel by omega)
    have hend : pre.length + 1 + u.length = (pre ++ '/' :: u).length := by simp; omega
    rw [List.append_nil, hend] at hp1
    refine ⟨none, ?_, fun s3 => ⟨Option.noConfusion, ?_⟩⟩
    · simp only [usbInterface, hfuel, hp1, lt_irrefl, if_false]
      simp
    · rintro ⟨s1, s2, t, rfl, -⟩
      exact absurd (List.mem_append_right _ (List.mem_cons_self _ _)) hu
  obtain ⟨s1, u2, rfl, hs1, rfl⟩ := strchr_eq_some_iff.mp h1
  simp only [List.length_append, List.length_cons] at hf
  have hs : pre ++ '/' :: (s1 ++ '/' :: u2) = (pre ++ '/' :: s1) ++ '/' :: u2 := by simp
  have hlen1 : (pre ++ '/' :: s1).length = pre.length + 1 + s1.length := by simp; omega
  have hp1 := skipSegment_append hs1 ('/' :: u2) (Or.inr rfl) pre '/'
    (show s1.length < fuel by omega)
  have hlt1 : pre.length + 1 + s1.length < (pre ++ '/' :: (s1 ++ '/' :: u2)).length := by
    simp; omega
  rcases h2 : strchr '/' u2 with _ | e2
  · -- two segments: the second skip stops at the terminator
    have hu2 := strchr_eq_none.mp h2
    have hp2 := skipSegment_append hu2 [] (Or.inl rfl) (pre ++ '/' :: s1) '/'
      (show u2.length < fuel by omega)
    have hend : pre.length + 1 + s1.length + 1 + u2.length =
        (pre ++ '/' :: (s1 ++ '/' :: u2)).length := by simp; omega
    rw [List.append_nil, ← hs, hlen1, hend] at hp2
    refine ⟨none, ?_, fun s3 => ⟨Option.noConfusion, ?_⟩⟩
    · simp only [usbInterface, hfuel, hp1, hlt1, if_true, hp2]
    · rintro ⟨s1', s2, t, heq, hs1', -⟩
      obtain ⟨rfl, rfl⟩ := append_cons_inj_of_not_mem hs1 hs1' heq
      exact absurd (List.mem_append_right _ (List.mem_cons_self _ _)) hu2
  obtain ⟨s2, u3, rfl, hs2, rfl⟩ := strchr_eq_some_iff.mp h2
  simp only [List.length_append, List.length_cons] at hf
  have hp2 := skipSegment_append hs2 ('/' :: u3) (Or.inr rfl) (pre ++ '/' :: s1) '/'
    (show s2.length < fuel by omega)
  rw [← hs, hlen1] at hp2
  have hne2 : pre.length + 1 + s1.length + 1 + s2.length ≠
      (pre ++ '/' :: (s1 ++ '/' :: (s2 ++ '/' :: u3))).length := by simp; omega
  have hdrop : (pre ++ '/' :: (s1 ++ '/' :: (s2 ++ '/' :: u3))).drop
      (pre.length + 1 + s1.length + 1 + s2.length + 1) = u3 := by
    rw [show pre ++ '/' :: (s1 ++ '/' :: (s2 ++ '/' :: u3)) =
      ((pre ++ '/' :: s1) ++ '/' :: s2) ++ '/' :: u3 by simp,
      show pre.length + 1 + s1.length + 1 + s2.length + 1 =
        ((pre ++ '/' :: s1) ++ '/' :: s2).length + 1 by simp; omega, drop_succ_append_cons]
  rcases h3 : strchr '/' u3 with _ | e3
  · -- three segments and no `/` after the third: `strchr` fails
    refine ⟨none, ?_, fun s3 => ⟨Option.noConfusion, ?_⟩⟩
    · simp only [usbInterface, hfuel, hp1, hlt1, if_true, hp2, hne2, if_false, strchrFrom, hdrop,
        h3, Option.map_none']
    · rintro ⟨s1', s2', t, heq, hs1', hs2', -⟩
      obtain ⟨rfl, heq1⟩ := append_cons_inj_of_not_mem hs1 hs1' heq
      obtain ⟨rfl, rfl⟩ := append_cons_inj_of_not_mem hs2 hs2' heq1
      exact absurd (List.mem_append_right _ (List.mem_cons_self _ _)) (strchr_eq_none.mp h3)
  obtain ⟨s3, t, rfl, hs3, rfl⟩ := strchr_eq_some_iff.mp h3
  refine ⟨if s3 = [] then none else some s3, ?_, fun s3' => ?_⟩
  · simp only [usbInterface, hfuel, hp1, hlt1, if_true, hp2, hne2, if_false, strchrFrom, hdrop,
      h3, Option.map_some', Nat.add_sub_cancel_left, List.take_left' rfl, List.length_eq_zero]
    split_ifs <;> rfl
  · constructor
    · intro h
      split_ifs at h with he
      cases h
      exact ⟨s1, s2, t, rfl, hs1, hs2, he, hs3⟩
    · rintro ⟨s1', s2', t', heq, hs1', hs2', hne, hs3'⟩
      obtain ⟨rfl, heq1⟩ := append_cons_inj_of_not_mem hs1 hs1' heq
      obtain ⟨rfl, heq2⟩ := append_cons_inj_of_not_mem hs2 hs2' heq1
      obtain ⟨rfl, rfl⟩ := append_cons_inj_of_not_mem hs3 hs3' heq2
      simp [hne]

/-- The rest of a devpath below its platform device, in the words of the USB-link description:
`/s1/s2/s3/t`, with segments `s1`, beginning with `usb`, and `s2`, and a non-empty segment `s3`,
none of them holding a `/`. -/
def UsbRest (r s3 : CStr) : Prop :=
  ∃ s1 s2 t, r = '/' :: s1 ++ '/' :: s2 ++ '/' :: s3 ++ '/' :: t ∧ "usb".toList <+: s1 ∧
    '/' ∉ s1 ∧ '/' ∉ s2 ∧ s3 ≠ [] ∧ '/' ∉ s3

/-- A tag without `c` that begins `s ++ c :: r` begins `s`. -/
theorem prefix_of_prefix_append_cons {tag s r : CStr} {c : Char} (ht : c ∉ tag)
    (h : tag <+: s ++ c :: r) : tag <+: s := by
  induction tag generalizing s with
  | nil => exact List.nil_prefix
  | cons t tag ih =>
    cases s with
    | nil =>
      obtain ⟨rfl, -⟩ := List.cons_prefix_cons.mp h
      exact absurd (List.mem_cons_self _ _) ht
    | cons x s =>
      obtain ⟨rfl, h'⟩ := List.cons_prefix_cons.mp h
      exact List.cons_prefix_cons.mpr ⟨rfl, ih (fun hm => ht (List.mem_cons_of_mem _ hm)) h'⟩

theorem usbRest_cons_iff {u s3 : CStr} :
    UsbRest ('/' :: u) s3 ↔ "usb".toList <+: u ∧ UsbSegs u s3 := by
  constructor
  · rintro ⟨s1, s2, t, hr, husb, hs1, hs2, hne, hs3⟩
    simp only [List.cons_append, List.append_assoc, List.cons.injEq, true_and] at hr
    subst hr
    exact ⟨husb.trans (List.prefix_append _ _), s1, s2, t, rfl, hs1, hs2, hne, hs3⟩
  · rintro ⟨husb, s1, s2, t, rfl, hs1, hs2, hne, hs3⟩
    exact ⟨s1, s2, t, by simp, prefix_of_prefix_append_cons (by decide) husb, hs1, hs2, hne, hs3⟩

/-- The segment a devpath's rest has in third place is unique. -/
theorem UsbSegs.unique {u s3 s3' : CStr} (h : UsbSegs u s3) (h' : UsbSegs u s3') : s3 = s3' := by
  obtain ⟨r, -, hr⟩ := usbInterface_append [] u
  exact Option.some.inj (((hr s3).mpr h).symm.trans ((hr s3').mpr h'))

/-- The slots of the USB builder's array: the link of the interface segment `s3`, unless its
`asprintf` fails, then `NULL`. -/
def usbSlots (alloc : LinkAlloc) (subsystem s3 : CStr) : List (Option CStr) :=
  slotsOf 2 (if alloc.usb then ["/dev/usb/".toList ++ subsystem ++ s3] else [])

theorem readLinks_usbSlots (alloc : LinkAlloc) (subsystem s3 : CStr) :
    readLinks (usbSlots alloc subsystem s3) =
      some (if alloc.usb then ["/dev/usb/".toList ++ subsystem ++ s3] else []) :=
  readLinks_slotsOf (by split <;> simp)

/-- Below a registered platform device the devpath continues with a `/`. -/
theorem exists_of_findPlatformDevice {reg : List PlatformNode} {path : CStr} {P : PlatformNode}
    (hP : findPlatformDevice reg path = some P) : ∃ u, path = P.path ++ '/' :: u := by
  obtain ⟨u, hu⟩ := platformMatches_iff.mp (List.find?_some hP)
  exact ⟨u, by simpa using hu.symm⟩

section UsbBuilder

variable {reg : List PlatformNode} {alloc : LinkAlloc} {v : UeventView} {P : PlatformNode}
  {u : CStr}

theorem drop_pathLen_of_eq (hu : v.path = P.path ++ '/' :: u) :
    v.path.drop P.pathLen = '/' :: u := by
  rw [P.pathLen_eq, hu, List.drop_left]

theorem strchrFrom_pathLen_of_eq (hu : v.path = P.path ++ '/' :: u) :
    strchrFrom v.path P.pathLen '/' = some P.pathLen := by
  simp [strchrFrom, drop_pathLen_of_eq hu, strchr]

theorem usb_check_iff (hu : v.path = P.path ++ '/' :: u) :
    ("/usb".toList <+: v.path.drop P.pathLen) ↔ "usb".toList <+: u := by
  rw [drop_pathLen_of_eq hu]
  exact List.cons_prefix_cons.trans (by simp)

/-- The builder returns the USB link's slots when the walk finds the interface segment. -/
theorem getCharacterDeviceSymlinks_of_usb (hP : findPlatformDevice reg v.path = some P)
    (hu : v.path = P.path ++ '/' :: u) (hslots : alloc.slots = true)
    (husb : "usb".toList <+: u) {s3 : CStr} (hs3 : UsbSegs u s3) :
    getCharacterDeviceSymlinks reg alloc v = some (some (usbSlots alloc v.subsystem s3), true) := by
  obtain ⟨r, hr, hrs⟩ := usbInterface_append P.path u
  rw [← P.pathLen_eq, ← hu, (hrs s3).mpr hs3] at hr
  have h0 : ((List.replicate 2 none : List (Option CStr)), 0) = (slotsOf 2 [], 0) := rfl
  simp only [getCharacterDeviceSymlinks, hP, hslots, Bool.not_true, Bool.false_eq_true, if_false,
    strchrFrom_pathLen_of_eq hu, decide_eq_true ((usb_check_iff hu).mpr husb), hr, h0,
    @pushLink_slotsOf 2 0 [] (by decide) rfl, usbSlots, List.nil_append]

/-- Otherwise it returns `NULL`, without the `mkdir`, and still without a fault. -/
theorem getCharacterDeviceSymlinks_of_not_usb
    (hno : ∀ P u s3, findPlatformDevice reg v.path = some P → v.path = P.path ++ '/' :: u →
      ¬ (alloc.slots = true ∧ "usb".toList <+: u ∧ UsbSegs u s3)) :
    getCharacterDeviceSymlinks reg alloc v = some (none, false) := by
  rcases hP : findPlatformDevice reg v.path with _ | P
  · simp [getCharacterDeviceSymlinks, hP]
  obtain ⟨u, hu⟩ := exists_of_findPlatformDevice hP
  obtain ⟨r, hr, hrs⟩ := usbInterface_append P.path u
  rw [← P.pathLen_eq, ← hu] at hr
  cases hslots : alloc.slots
  · simp [getCharacterDeviceSymlinks, hP, hslots]
  by_cases husb : "usb".toList <+: u
  · rcases r with _ | s3
    · simp only [getCharacterDeviceSymlinks, hP, hslots, Bool.not_true, Bool.false_eq_true,
        if_false, strchrFrom_pathLen_of_eq hu, decide_eq_true ((usb_check_iff hu).mpr husb), hr]
    · exact absurd ⟨hslots, husb, (hrs s3).mp rfl⟩ (hno P u s3 hP hu)
  · simp only [getCharacterDeviceSymlinks, hP, hslots, Bool.not_true, Bool.false_eq_true,
      if_false, strchrFrom_pathLen_of_eq hu, decide_eq_false (mt (usb_check_iff hu).mp husb),
      Bool.not_false, if_true]

end UsbBuilder

/-- **The USB links.** For every registry and every outcome of the allocations, the walk of
`get_character_device_symlinks` never reads past the devpath's terminator, and the builder
returns an array exactly when the array can be allocated and the devpath continues below a
registered platform device `P` as `/s1/s2/s3/t`, `s1` beginning with `usb`. The array then holds
`/dev/usb/<SUBSYSTEM><s3>`, or nothing when its `asprintf` fails, and a `NULL` within its two
slots. -/
theorem get_character_device_symlinks_usb (reg : List PlatformNode) (alloc : LinkAlloc)
    (v : UeventView) :
    ∃ links made, getCharacterDeviceSymlinks reg alloc v = some (links, made) ∧
      (links ≠ none ↔ alloc.slots = true ∧ ∃ P s3, findPlatformDevice reg v.path = some P ∧
        UsbRest (v.path.drop P.pathLen) s3) ∧
      ∀ P s3, findPlatformDevice reg v.path = some P → UsbRest (v.path.drop P.pathLen) s3 →
        alloc.slots = true →
        links = some (slotsOf 2
          (if alloc.usb then ["/dev/usb/".toList ++ v.subsystem ++ s3] else [])) ∧
        readLinks (slotsOf 2 (if alloc.usb then ["/dev/usb/".toList ++ v.subsystem ++ s3] else []))
          = some (if alloc.usb then ["/dev/usb/".toList ++ v.subsystem ++ s3] else []) := by
  -- the rest below a found device, read as `/u`
  have hrest : ∀ P s3, findPlatformDevice reg v.path = some P →
      (UsbRest (v.path.drop P.pathLen) s3 ↔ ∃ u, v.path = P.path ++ '/' :: u ∧
        "usb".toList <+: u ∧ UsbSegs u s3) := fun P s3 hP => by
    obtain ⟨u, hu⟩ := exists_of_findPlatformDevice hP
    rw [drop_pathLen_of_eq hu, usbRest_cons_iff]
    refine ⟨fun h => ⟨u, hu, h⟩, fun ⟨u', hu', h⟩ => ?_⟩
    rw [hu, List.append_cancel_left_eq, List.cons.injEq] at hu'
    exact hu'.2 ▸ h
  by_cases hex : ∃ P u s3, findPlatformDevice reg v.path = some P ∧ v.path = P.path ++ '/' :: u ∧
      alloc.slots = true ∧ "usb".toList <+: u ∧ UsbSegs u s3
  · obtain ⟨P, u, s3, hP, hu, hslots, husb, hs3⟩ := hex
    refine ⟨_, true, getCharacterDeviceSymlinks_of_usb hP hu hslots husb hs3,
      ⟨fun _ => ⟨hslots, P, s3, hP, (hrest P s3 hP).mpr ⟨u, hu, husb, hs3⟩⟩,
        fun _ => Option.some_ne_none _⟩, fun P' s3' hP' h _ => ?_⟩
    obtain ⟨u', hu', -, hs3'⟩ := (hrest P' s3' hP').mp h
    cases hP.symm.trans hP'
    rw [hu, List.append_cancel_left_eq, List.cons.injEq] at hu'
    cases hu'.2
    cases hs3.unique hs3'
    exact ⟨rfl, readLinks_usbSlots alloc v.subsystem s3⟩
  · have hno : ∀ P u s3, findPlatformDevice reg v.path = some P → v.path = P.path ++ '/' :: u →
        ¬ (alloc.slots = true ∧ "usb".toList <+: u ∧ UsbSegs u s3) :=
      fun P u s3 hP hu h => hex ⟨P, u, s3, hP, hu, h⟩
    refine ⟨none, false, getCharacterDeviceSymlinks_of_not_usb hno,
      ⟨fun h => absurd rfl h, fun ⟨hs, P, s3, hP, h⟩ => ?_⟩, fun P s3 hP h hs => ?_⟩ <;>
    · obtain ⟨u, hu, husb, hs3⟩ := (hrest P s3 hP).mp h
      exact absurd ⟨hs, husb, hs3⟩ (hno P u s3 hP hu)

theorem get_character_device_symlinks_usb_tty :
    let reg := addPlatformDevice "/devices/platform/msm_hsusb_host".toList []
    let alloc : LinkAlloc := ⟨true, true, true, true, true⟩
    let v : UeventView := ⟨"add".toList,
      "/devices/platform/msm_hsusb_host/usb1/1-1/1-1:1.0/tty/ttyUSB0".toList, "tty".toList, [],
      none, some "ttyUSB0".toList, none, -1, 188, 0⟩
    let s3 := "1-1:1.0".toList
    (∃ P, findPlatformDevice reg v.path = some P ∧ UsbRest (v.path.drop P.pathLen) s3) ∧
      ∃ links made, getCharacterDeviceSymlinks reg alloc v = some (links, made) ∧
        links = some (slotsOf 2 ["/dev/usb/".toList ++ v.subsystem ++ s3]) ∧
        readLinks (slotsOf 2 ["/dev/usb/".toList ++ v.subsystem ++ s3]) =
          some ["/dev/usb/tty1-1:1.0".toList] := by
  intro reg alloc v s3
  have hP : ∃ P, findPlatformDevice reg v.path = some P ∧ UsbRest (v.path.drop P.pathLen) s3 :=
    ⟨_, rfl, "usb1".toList, "1-1".toList, "tty/ttyUSB0".toList, by decide, by decide, by decide,
      by decide, by decide, by decide⟩
  obtain ⟨P, hfind, hrest⟩ := hP
  obtain ⟨links, made, hsym, -, hlinks⟩ := get_character_device_symlinks_usb reg alloc v
  obtain ⟨hl, hr⟩ := hlinks P s3 hfind hrest rfl
  exact ⟨⟨P, hfind, hrest⟩, links, made, hsym, hl, hr⟩

end Ueventd
