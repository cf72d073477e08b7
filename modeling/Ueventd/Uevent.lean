/-
# Ueventd.Uevent — `struct uevent` and `parse_event`

`handle_device_fd` receives a netlink datagram of `n` bytes into `msg`, NUL-pads it at `msg[n]`
and `msg[n+1]`, and hands it to `parse_event`. The parser walks NUL-terminated records with a
pointer: at each record it runs an `if … else if` chain of `strncmp` against ten literal tags,
moves the pointer past the tag that matched and stores it (or `atoi` of what follows), then scans
past the next NUL with `while (*msg++)`. It stops at the first empty record.

The model keeps the pointer as the pair (bytes from the pointer on, their offset in `msg`), so a
string field of `struct uevent` is an offset into `msg`. Every read goes through the list of bytes
that remain: a read past the end of `msg` is the fault `none`. `parse_event` itself has no fuel;
`parseLoop` gets one iteration per byte of `msg`, which `Ueventd.UeventRecords` shows is always
enough.
-/
import Ueventd.CString

namespace Ueventd

/-! ## Tags -/

/-- The ten tags `parse_event` recognises. -/
inductive Tag
  | action | devpath | subsystem | firmware | major | minor | partn | partname | devname | modalias
  deriving DecidableEq, Repr, Fintype

namespace Tag

/-- The literal each tag is compared against, `=` included. -/
def text : Tag → CStr
  | action => "ACTION=".toList
  | devpath => "DEVPATH=".toList
  | subsystem => "SUBSYSTEM=".toList
  | firmware => "FIRMWARE=".toList
  | major => "MAJOR=".toList
  | minor => "MINOR=".toList
  | partn => "PARTN=".toList
  | partname => "PARTNAME=".toList
  | devname => "DEVNAME=".toList
  | modalias => "MODALIAS=".toList

/-- The order of the `if … else if` chain of `parse_event`. -/
def order : List Tag :=
  [action, devpath, subsystem, firmware, major, minor, partn, partname, devname, modalias]

theorem mem_order (t : Tag) : t ∈ order := by
  cases t <;> decide

theorem nul_not_mem_text (t : Tag) : nul ∉ t.text := by
  cases t <;> decide

theorem text_ne_nil (t : Tag) : t.text ≠ [] := by
  cases t <;> decide

/-- No tag is a prefix of another (`PARTN=` of `PARTNAME=`, `DEVPATH=` of `DEVNAME=` …). -/
theorem text_prefix_text {t t' : Tag} : t.text <+: t'.text ↔ t = t' := by
  constructor
  · cases t <;> cases t' <;> decide
  · rintro rfl
    exact List.prefix_refl _

/-- A record is attributed to at most one tag. -/
theorem eq_of_prefix {t t' : Tag} {r : CStr} (h : t.text <+: r) (h' : t'.text <+: r) : t = t' := by
  rcases List.prefix_or_prefix_of_prefix h h' with h'' | h''
  · exact text_prefix_text.mp h''
  · exact (text_prefix_text.mp h'').symm

end Tag

/-! ## `struct uevent` -/

/-- `struct uevent` as `parse_event` fills it. A string field is an offset into `msg`; `none` is
the default the source assigns: the literal `""` for `action`, `path`, `subsystem` and
`firmware`, `NULL` for `partition_name`, `device_name` and `modalias`. -/
structure Uevent where
  action : Option Nat
  path : Option Nat
  subsystem : Option Nat
  firmware : Option Nat
  partitionName : Option Nat
  deviceName : Option Nat
  modalias : Option Nat
  partitionNum : Int
  major : Int
  minor : Int
  deriving DecidableEq, Repr

namespace Uevent

/-- The defaults `parse_event` assigns before its loop. -/
def init : Uevent :=
  ⟨none, none, none, none, none, none, none, -1, -1, -1⟩

/-- The assignment in the branch of tag `t`: a string field takes the offset `p` just past the
tag, a numeric field `atoi` of the C string `v` that starts there. -/
def capture (u : Uevent) (p : Nat) (v : CStr) : Tag → Uevent
  | .action => { u with action := some p }
  | .devpath => { u with path := some p }
  | .subsystem => { u with subsystem := some p }
  | .firmware => { u with firmware := some p }
  | .major => { u with major := atoi v }
  | .minor => { u with minor := atoi v }
  | .partn => { u with partitionNum := atoi v }
  | .partname => { u with partitionName := some p }
  | .devname => { u with deviceName := some p }
  | .modalias => { u with modalias := some p }

/-- The offsets the string fields hold. -/
def pointers (u : Uevent) : List Nat :=
  [u.action, u.path, u.subsystem, u.firmware, u.partitionName, u.deviceName, u.modalias].filterMap id

end Uevent

/-! ## The event as the handlers read it -/

/-- The value of one field once dereferenced. -/
inductive FieldVal
  /-- A string whose default is the literal `""`. -/
  | str (s : CStr)
  /-- A string whose default is `NULL`. -/
  | opt (s : Option CStr)
  | num (n : Int)
  deriving DecidableEq, Repr

/-- `struct uevent` with every pointer followed: what the handlers see. -/
structure UeventView where
  action : CStr
  path : CStr
  subsystem : CStr
  firmware : CStr
  partitionName : Option CStr
  deviceName : Option CStr
  modalias : Option CStr
  partitionNum : Int
  major : Int
  minor : Int
  deriving DecidableEq, Repr

namespace UeventView

/-- The field a tag sets. -/
def get (v : UeventView) : Tag → FieldVal
  | .action => .str v.action
  | .devpath => .str v.path
  | .subsystem => .str v.subsystem
  | .firmware => .str v.firmware
  | .major => .num v.major
  | .minor => .num v.minor
  | .partn => .num v.partitionNum
  | .partname => .opt v.partitionName
  | .devname => .opt v.deviceName
  | .modalias => .opt v.modalias

theorem ext_get {a b : UeventView} (h : ∀ t, a.get t = b.get t) : a = b := by
  have := h .action; have := h .devpath; have := h .subsystem; have := h .firmware
  have := h .major; have := h .minor; have := h .partn; have := h .partname
  have := h .devname; have := h .modalias
  cases a; cases b; simp_all [get]

end UeventView

/-- Every pointer of `u` followed in `msg`. -/
def Uevent.view (msg : List Char) (u : Uevent) : UeventView where
  action := (u.action.map fun p => cstr (msg.drop p)).getD []
  path := (u.path.map fun p => cstr (msg.drop p)).getD []
  subsystem := (u.subsystem.map fun p => cstr (msg.drop p)).getD []
  firmware := (u.firmware.map fun p => cstr (msg.drop p)).getD []
  partitionName := u.partitionName.map fun p => cstr (msg.drop p)
  deviceName := u.deviceName.map fun p => cstr (msg.drop p)
  modalias := u.modalias.map fun p => cstr (msg.drop p)
  partitionNum := u.partitionNum
  major := u.major
  minor := u.minor

namespace Tag

/-- The default `parse_event` gives the field of `t`. -/
def default : Tag → FieldVal
  | action | devpath | subsystem | firmware => .str []
  | major | minor | partn => .num (-1)
  | partname | devname | modalias => .opt none

/-- The value a record `t.text ++ v` gives the field of `t`. -/
def value (t : Tag) (v : CStr) : FieldVal :=
  match t with
  | action | devpath | subsystem | firmware => .str v
  | major | minor | partn => .num (atoi v)
  | partname | devname | modalias => .opt (some v)

end Tag

@[simp] theorem Uevent.view_init_get (msg : List Char) (t : Tag) :
    (Uevent.init.view msg).get t = t.default := by
  cases t <;> rfl

/-- **Frame of one assignment.** Setting the field of `t` to a value that reads back as `v`
changes that field to `t.value v` and no other. -/
theorem Uevent.view_capture_get {msg : List Char} {p : Nat} {v : CStr}
    (hv : cstr (msg.drop p) = v) (u : Uevent) (t t' : Tag) :
    ((u.capture p v t).view msg).get t' = if t' = t then t.value v else (u.view msg).get t' := by
  cases t <;> cases t' <;> first | rfl | simp [Uevent.capture, Uevent.view, UeventView.get, Tag.value, hv]

/-- Setting one slot of a list of optional offsets adds at most that offset. -/
theorem mem_filterMap_set {L : List (Option Nat)} {i p q : Nat}
    (h : q ∈ (L.set i (some p)).filterMap id) : q ∈ L.filterMap id ∨ q = p := by
  induction L generalizing i with
  | nil => simp at h
  | cons o L ih =>
    cases i with
    | zero =>
      rcases List.mem_cons.mp h with rfl | hq
      · exact .inr rfl
      · left
        cases o
        · exact hq
        · exact List.mem_cons_of_mem _ hq
    | succ i =>
      cases o with
      | none => exact ih h
      | some a =>
        rcases List.mem_cons.mp h with rfl | hq
        · exact .inl (List.mem_cons_self _ _)
        · exact (ih hq).imp_left (List.mem_cons_of_mem _)

/-- A string field's assignment sets its slot of `pointers`; a numeric one sets none. -/
theorem Uevent.mem_pointers_capture {u : Uevent} {p q : Nat} {v : CStr} {t : Tag}
    (h : q ∈ (u.capture p v t).pointers) : q ∈ u.pointers ∨ q = p := by
  have hset := fun i => @mem_filterMap_set
    [u.action, u.path, u.subsystem, u.firmware, u.partitionName, u.deviceName, u.modalias] i p q
  cases t with
  | action => exact hset 0 h
  | devpath => exact hset 1 h
  | subsystem => exact hset 2 h
  | firmware => exact hset 3 h
  | major | minor | partn => exact .inl h
  | partname => exact hset 4 h
  | devname => exact hset 5 h
  | modalias => exact hset 6 h

/-! ## `parse_event` -/

/-- `while (*msg++);` from offset `off` over the bytes `s` from there: the bytes and offset just
past the next NUL; `none` when the scan runs off the end of `msg`. -/
def skipPastNul : List Char → Nat → Option (List Char × Nat)
  | [], _ => none
  | c :: s, off => if c = nul then some (s, off + 1) else skipPastNul s (off + 1)

/-- The `if … else if` chain on the record at the head of `s`: the first tag, in source order,
whose `strncmp` matches. -/
def matchTag (s : List Char) : List Tag → Option (Option Tag)
  | [] => some none
  | t :: ts => do if (← strncmpTag s t.text) then pure (some t) else matchTag s ts

/-- The body of the loop once the chain has picked `t?` on the record at the head of `s`: the
updated event, and how far `msg` has moved before the scan to the next NUL. -/
def takeTag (u : Uevent) (s : List Char) (off : Nat) : Option Tag → Uevent × Nat
  | none => (u, 0)
  | some t => (u.capture (off + t.text.length) (cstr (s.drop t.text.length)) t, t.text.length)

/-- The `while (*msg)` loop of `parse_event`, one record per unit of fuel. -/
def parseLoop : Nat → List Char → Nat → Uevent → Option Uevent
  | 0, _, _, _ => none
  | _ + 1, [], _, _ => none
  | fuel + 1, c :: s, off, u =>
    if c = nul then some u else do
      let t? ← matchTag (c :: s) Tag.order
      let (u', k) := takeTag u (c :: s) off t?
      let (s', off') ← skipPastNul ((c :: s).drop k) (off + k)
      parseLoop fuel s' off' u'

/-- `parse_event(msg, &uevent)`. -/
def parseEvent (msg : List Char) : Option Uevent :=
  parseLoop msg.length msg 0 Uevent.init

/-! ## One iteration on a well-formed record -/

/-- The tag a NUL-free record is attributed to. -/
def recordTag (r : CStr) : Option Tag :=
  Tag.order.find? fun t => decide (t.text <+: r)

/-- What one iteration does with a NUL-terminated record `r` at offset `off`. -/
def applyRecord (u : Uevent) (off : Nat) (r : CStr) : Uevent :=
  match recordTag r with
  | none => u
  | some t => u.capture (off + t.text.length) (r.drop t.text.length) t

theorem prefix_of_recordTag {r : CStr} {t : Tag} (h : recordTag r = some t) : t.text <+: r := by
  simpa using List.find?_some h

theorem skipPastNul_append {r : CStr} (hr : nul ∉ r) (rest : List Char) (off : Nat) :
    skipPastNul (r ++ nul :: rest) off = some (rest, off + r.length + 1) := by
  induction r generalizing off with
  | nil => simp [skipPastNul]
  | cons c r ih =>
    have hc : c ≠ nul := fun h => hr (h ▸ List.mem_cons_self _ _)
    rw [List.cons_append, skipPastNul, if_neg hc, ih (fun h => hr (List.mem_cons_of_mem _ h)),
      List.length_cons]
    congr 2
    omega

theorem matchTag_append_nul {r : CStr} (hr : nul ∉ r) (rest : List Char) (ts : List Tag) :
    matchTag (r ++ nul :: rest) ts = some (ts.find? fun t => decide (t.text <+: r)) := by
  induction ts with
  | nil => rfl
  | cons t ts ih =>
    simp only [matchTag, strncmpTag_append_nul (Tag.nul_not_mem_text t) hr, Option.pure_def,
      Option.bind_eq_bind, Option.some_bind, List.find?_cons]
    split <;> simp_all

theorem parseLoop_nul (fuel : Nat) (s : List Char) (off : Nat) (u : Uevent) :
    parseLoop (fuel + 1) (nul :: s) off u = some u := by
  simp [parseLoop]

/-- **One iteration.** On a non-empty NUL-terminated record the loop applies the record and
resumes just past its NUL. -/
theorem parseLoop_record {r : CStr} (hne : r ≠ []) (hr : nul ∉ r) (fuel : Nat) (rest : List Char)
    (off : Nat) (u : Uevent) :
    parseLoop (fuel + 1) (r ++ nul :: rest) off u =
      parseLoop fuel rest (off + r.length + 1) (applyRecord u off r) := by
  obtain ⟨c, r', rfl⟩ := List.exists_cons_of_ne_nil hne
  have hc : c ≠ nul := fun h => hr (h ▸ List.mem_cons_self _ _)
  have hm := matchTag_append_nul hr rest Tag.order
  simp only [List.cons_append] at hm
  rw [List.cons_append, parseLoop, if_neg hc, hm, Option.bind_eq_bind, Option.some_bind,
    ← List.cons_append]
  unfold applyRecord recordTag
  cases ht : Tag.order.find? fun t => decide (t.text <+: c :: r') with
  | none =>
    simp only [takeTag, List.drop_zero, Nat.add_zero, skipPastNul_append hr, Option.bind_eq_bind,
      Option.some_bind]
  | some t =>
    obtain ⟨pre, hpre⟩ : t.text <+: c :: r' := by simpa using List.find?_some ht
    have hdrop : (c :: r' ++ nul :: rest).drop t.text.length = pre ++ nul :: rest := by
      rw [← hpre, List.append_assoc, List.drop_left]
    have hpre_nul : nul ∉ pre := fun h => hr (hpre ▸ List.mem_append_right _ h)
    have hlen : t.text.length + pre.length = (c :: r').length := by
      rw [← hpre, List.length_append]
    have hpre' : (c :: r').drop t.text.length = pre := by rw [← hpre, List.drop_left]
    simp only [takeTag, hdrop, cstr_append_nul hpre_nul, skipPastNul_append hpre_nul,
      Option.bind_eq_bind, Option.some_bind, hpre']
    congr 1
    omega

end Ueventd
