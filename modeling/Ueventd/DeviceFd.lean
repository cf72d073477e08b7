/-
# Ueventd.DeviceFd — the event loop `handle_device_fd`

`handle_device_fd(child)` drains the netlink socket. Each `uevent_kernel_multicast_recv` into the
stack buffer `msg[UEVENT_MSG_LEN+2]` returns a byte count `n`. The loop ends at the first `n ≤ 0`,
drops a message that filled the buffer (`n >= UEVENT_MSG_LEN`), ends the others with two NULs,
parses them, and hands the event to `handle_firmware_event` (in the child `ueventd` forks for
firmware) or to `handle_device_event` (in the parent).

The loop is modelled once, over any handler of one event and any state it tracks (`recvLoop`).
Here the state is what the loop changes in the daemon's memory: the platform registry, the
module tables with every module passed to `insmod_by_dep`, and what the firmware handler did.
`fixup_sys_perms` and the block and generic handlers only read this state (the last two through
`find_platform_device`); `Ueventd.Daemon` runs the same loop with their file-system calls. The
buffer is modelled whole: past `msg[n+1]` it still holds what earlier messages left there.

The main result (`recvLoop_eq`) is that the loop handles the datagrams before the first failed
or empty receive, less those that fill the buffer, each as the event its own records describe,
whatever the buffer held before. In the parent the registry and the module loader
then run exactly the platform and module steps of those messages
(`handle_device_fd_parent_refines`), so what `Ueventd.Platform` and `Ueventd.Modules` prove of
runs holds of the daemon's loop; in the child only the firmware handler runs, once per handled
message (`handle_device_fd_child_refines`).
-/
import Ueventd.UeventRecords
import Ueventd.Platform
import Ueventd.Modules
import Ueventd.Firmware

namespace Ueventd

/-- `UEVENT_MSG_LEN`. -/
def ueventMsgLen : Nat := 2048

/-- One return of `uevent_kernel_multicast_recv(device_fd, msg, UEVENT_MSG_LEN)`. -/
inductive Recv
  /-- A datagram from the kernel: the call stores its first `UEVENT_MSG_LEN` bytes and returns
  their count. -/
  | datagram (bytes : List Char)
  /-- `-1`: nothing pending on the non-blocking socket, a failed read, or a message that is not
  from the kernel. -/
  | fail
  deriving DecidableEq, Repr

/-- The outcomes of the external calls the handlers of one event make. -/
structure EventEnv where
  modules : ModuleEnv
  firmware : FwEnv

/-- What `handle_device_fd` changes that the model tracks. -/
structure DeviceState where
  platformNames : List PlatformNode
  modules : ModuleTables
  /-- Every module passed to `insmod_by_dep`, in order. -/
  inserted : List CStr
  /-- What the firmware handler did, in order. -/
  firmwareEffects : List FwEffect

/-! ## The handlers -/

section Handlers

variable (fnmatch : Fnmatch) (dirs : List CStr) (fuel : Nat)

/-- `handle_device_event(uevent)` on the tracked state: `handle_module_loading` for an `add`, then
the handler the subsystem selects, `strncmp` against `block` first and `platform` second. -/
def handleDeviceEvent (env : ModuleEnv) (v : UeventView) (st : DeviceState) : DeviceState :=
  let r := moduleStep fnmatch st.modules (.uevent v.action v.modalias env)
  { st with
    platformNames :=
      if "block".toList <+: v.subsystem then st.platformNames
      else if "platform".toList <+: v.subsystem then
        handlePlatformDeviceEvent st.platformNames v.action v.path
      else st.platformNames
    modules := r.1
    inserted := st.inserted ++ r.2 }

/-- `handle_firmware_event(uevent)`: `process_firmware_event` for a `firmware` `add` event. -/
def handleFirmwareEvent (env : FwEnv) (v : UeventView) : Option (List FwEffect) :=
  if v.subsystem ≠ "firmware".toList then some []
  else if v.action ≠ "add".toList then some []
  else processFirmwareEvent env dirs v.firmware fuel

/-- The handler of one event in the child or in the parent; `none` while the firmware handler
has not returned. -/
def handleEvent (child : Bool) (env : EventEnv) (v : UeventView) (st : DeviceState) :
    Option DeviceState :=
  if child then
    (handleFirmwareEvent dirs fuel env.firmware v).map fun effs =>
      { st with firmwareEffects := st.firmwareEffects ++ effs }
  else some (handleDeviceEvent fnmatch env.modules v st)

end Handlers

/-! ## The loop -/

section Loop

variable {σ ε : Type} (handle : ε → UeventView → σ → Option σ)

/-- The loop of `handle_device_fd`, whatever the handler of one event does: `handle env v s` runs
it on the event `v` with the outcomes `env` of its calls, on the state `s` the caller tracks.
`buf` is what `msg` holds; the result is `none` when a parse faults or a handler has not
returned. -/
def recvLoop : List Char → σ → List (Recv × ε) → Option σ
  | _, st, [] => some st
  | _, st, (.fail, _) :: _ => some st
  | buf, st, (.datagram d, env) :: rs =>
    let n := min d.length ueventMsgLen
    if n = 0 then some st
    else if ueventMsgLen ≤ n then recvLoop (d.take ueventMsgLen ++ buf.drop n) st rs
    else
      let msg := d ++ [nul, nul] ++ buf.drop (n + 2)
      match parseEvent msg with
      | none => none
      | some u => (handle env (u.view msg) st).bind fun st => recvLoop msg st rs

/-- The messages one call handles, each with its handlers' environment: the datagrams before the
first failed or empty receive, less those that fill the buffer. -/
def acceptedMessages : List (Recv × ε) → List (List Char × ε)
  | [] => []
  | (.fail, _) :: _ => []
  | (.datagram d, env) :: rs =>
    if d = [] then []
    else if ueventMsgLen ≤ d.length then acceptedMessages rs
    else (d, env) :: acceptedMessages rs

/-- The event a message describes: its records applied in order, read in the message. -/
def eventOf (d : List Char) : UeventView :=
  (applyRecords 0 (liveRecords (d ++ [nul, nul])) Uevent.init).view (d ++ [nul, nul])

/-- Each message handled in turn as the event it describes. -/
def messagesLoop : σ → List (List Char × ε) → Option σ
  | st, [] => some st
  | st, (d, env) :: ms => (handle env (eventOf d) st).bind fun st => messagesLoop st ms

end Loop

/-! ## The daemon's loop -/

section Messages

variable (fnmatch : Fnmatch) (dirs : List CStr) (fuel : Nat)

/-- `handle_device_fd(child)` with `buf` in `msg`, on the receives of `rs`, each with the
environment of its event's handlers; `none` when a parse faults or a handler has not returned. -/
def handleDeviceFd (child : Bool) :
    List Char → DeviceState → List (Recv × EventEnv) → Option DeviceState :=
  recvLoop (handleEvent fnmatch dirs fuel child)

/-- Each message handled in turn as the event it describes. -/
def handleMessages (child : Bool) :
    DeviceState → List (List Char × EventEnv) → Option DeviceState :=
  messagesLoop (handleEvent fnmatch dirs fuel child)

/-- The platform event `handle_device_event` makes of an event: its `ACTION` and `DEVPATH` when
it goes to `handle_platform_device_event`. -/
def platformEventOf (v : UeventView) : Option PlatformEvent :=
  if "block".toList <+: v.subsystem then none
  else if "platform".toList <+: v.subsystem then some (v.action, v.path)
  else none

/-- The platform events of handled messages, in order. -/
def platformEvents {ε : Type} (ms : List (List Char × ε)) : List PlatformEvent :=
  ms.flatMap fun m => (platformEventOf (eventOf m.1)).toList

theorem platformEvents_cons {ε : Type} (d : List Char) (x : ε) (ms : List (List Char × ε)) :
    platformEvents ((d, x) :: ms) = (platformEventOf (eventOf d)).toList ++ platformEvents ms :=
  rfl

/-- The module loader's steps of handled messages, in order. -/
def moduleSteps (ms : List (List Char × EventEnv)) : List ModuleStep :=
  ms.map fun m => .uevent (eventOf m.1).action (eventOf m.1).modalias m.2.modules

/-- What the firmware handler does over handled messages, in order; `none` from the first run
that has not returned. -/
def firmwareRun : List (List Char × EventEnv) → Option (List FwEffect)
  | [] => some []
  | (d, env) :: ms =>
    (handleFirmwareEvent dirs fuel env.firmware (eventOf d)).bind fun effs =>
      (firmwareRun ms).map (effs ++ ·)

end Messages

/-! ## The buffer past the terminator -/

theorem cstr_drop_append {msg : List Char} {p : Nat} (h : nul ∈ msg.drop p) (junk : List Char) :
    cstr ((msg ++ junk).drop p) = cstr (msg.drop p) := by
  have hp : p ≤ msg.length := by
    by_contra hp
    simp [List.drop_eq_nil_of_le (by omega : msg.length ≤ p)] at h
  obtain ⟨r, t, hrt, hr⟩ := exists_first_nul h
  rw [List.drop_append_of_le_length hp, hrt, List.append_assoc, List.cons_append, cstr_append_nul hr,
    cstr_append_nul hr]

/-- Bytes past the terminators of every field an event points to are never read. -/
theorem Uevent.view_append {u : Uevent} {msg : List Char} (h : ∀ p ∈ u.pointers, nul ∈ msg.drop p)
    (junk : List Char) : u.view (msg ++ junk) = u.view msg := by
  have key : ∀ o : Option Nat, (∀ p, o = some p → p ∈ u.pointers) →
      o.map (fun p => cstr ((msg ++ junk).drop p)) = o.map fun p => cstr (msg.drop p) := by
    rintro (_ | p) ho
    · rfl
    · exact congrArg some (cstr_drop_append (h p (ho p rfl)) junk)
  simp only [Uevent.view]
  rw [key u.action, key u.path, key u.subsystem, key u.firmware, key u.partitionName,
    key u.deviceName, key u.modalias] <;> intro p hp <;> simp [Uevent.pointers, hp]

/-- **One message.** `parse_event` on a message ended by two NULs neither faults nor reads what
follows them, and it yields the event the message's records describe. -/
theorem parseEvent_padded (d junk : List Char) :
    ∃ u, parseEvent (d ++ [nul, nul] ++ junk) = some u ∧
      u.view (d ++ [nul, nul] ++ junk) = eventOf d := by
  refine ⟨_, parseLoop_framed ((framed_padded d).append_right junk) le_rfl 0 Uevent.init, ?_⟩
  refine Uevent.view_append (fun p hp => ?_) junk
  rcases pointers_applyRecords (framed_padded d) (List.drop_zero _) Uevent.init p hp with h | h
  · simp [Uevent.pointers, Uevent.init] at h
  · simp [List.drop_append_of_le_length h]

/-- **The loop handles the accepted messages.** Whatever the buffer held before and whatever
arrives, the loop of `handle_device_fd` handles the datagrams before the first failed or empty
receive, less those that fill the buffer, each as the event its own records describe. -/
theorem recvLoop_eq {σ ε : Type} (handle : ε → UeventView → σ → Option σ) (buf : List Char)
    (st : σ) (rs : List (Recv × ε)) :
    recvLoop handle buf st rs = messagesLoop handle st (acceptedMessages rs) := by
  induction rs generalizing buf st with
  | nil => rfl
  | cons r rs ih =>
    obtain ⟨d | _, env⟩ := r
    · simp only [recvLoop, acceptedMessages]
      by_cases h0 : d = []
      · simp [h0, messagesLoop]
      have hn : min d.length ueventMsgLen ≠ 0 := by
        simp [ueventMsgLen, List.length_eq_zero, h0]
      rw [if_neg hn, if_neg h0]
      by_cases hfull : ueventMsgLen ≤ d.length
      · rw [if_pos (by omega), if_pos hfull, ih]
      · rw [if_neg (by omega), if_neg hfull, show min d.length ueventMsgLen = d.length by omega]
        obtain ⟨u, hu, hv⟩ := parseEvent_padded d (buf.drop (d.length + 2))
        simp only [hu, hv, ih, messagesLoop]
    · rfl

section Loop

variable (fnmatch : Fnmatch) (dirs : List CStr) (fuel : Nat)

/-- `handle_device_fd` handles the accepted messages. -/
theorem handleDeviceFd_eq (child : Bool) (buf : List Char) (st : DeviceState)
    (rs : List (Recv × EventEnv)) :
    handleDeviceFd fnmatch dirs fuel child buf st rs =
      handleMessages fnmatch dirs fuel child st (acceptedMessages rs) :=
  recvLoop_eq _ buf st rs

theorem handleMessages_nil (child : Bool) (st : DeviceState) :
    handleMessages fnmatch dirs fuel child st [] = some st := rfl

theorem handleMessages_cons (child : Bool) (st : DeviceState) (d : List Char) (env : EventEnv)
    (ms : List (List Char × EventEnv)) :
    handleMessages fnmatch dirs fuel child st ((d, env) :: ms) =
      (handleEvent fnmatch dirs fuel child env (eventOf d) st).bind fun st =>
        handleMessages fnmatch dirs fuel child st ms := rfl

theorem handleDeviceEvent_platformNames (env : ModuleEnv) (v : UeventView) (st : DeviceState) :
    (handleDeviceEvent fnmatch env v st).platformNames =
      platformRun st.platformNames (platformEventOf v).toList := by
  unfold handleDeviceEvent platformEventOf
  split_ifs <;> rfl

/-- In the parent every event is handled, and the registry and the module loader take exactly
their own steps. -/
theorem handleMessages_parent (st : DeviceState) (ms : List (List Char × EventEnv)) :
    handleMessages fnmatch dirs fuel false st ms = some
      { st with
        platformNames := platformRun st.platformNames (platformEvents ms)
        modules := (moduleRun fnmatch st.modules (moduleSteps ms)).1
        inserted := st.inserted ++ (moduleRun fnmatch st.modules (moduleSteps ms)).2 } := by
  induction ms generalizing st with
  | nil => simp [handleMessages_nil, platformEvents, moduleSteps, moduleRun, platformRun]
  | cons m ms ih =>
    obtain ⟨d, env⟩ := m
    simp only [handleMessages_cons, handleEvent, Bool.false_eq_true, if_false, Option.some_bind, ih,
      handleDeviceEvent_platformNames]
    simp [handleDeviceEvent, platformEvents, moduleSteps, moduleRun, platformRun, List.foldl_append]

/-- **The parent's loop refines the registry and the module loader.** Whatever the buffer held
and whatever arrives, `handle_device_fd(false)` returns, and it leaves the platform registry as
`handle_platform_device_event` leaves it after the platform events of the handled messages, and
the module tables and the inserted modules as the module loader leaves them after their
`handle_module_loading` steps. -/
theorem handle_device_fd_parent_refines (buf : List Char) (st : DeviceState)
    (rs : List (Recv × EventEnv)) :
    handleDeviceFd fnmatch dirs fuel false buf st rs = some
      { st with
        platformNames := platformRun st.platformNames (platformEvents (acceptedMessages rs))
        modules := (moduleRun fnmatch st.modules (moduleSteps (acceptedMessages rs))).1
        inserted :=
          st.inserted ++ (moduleRun fnmatch st.modules (moduleSteps (acceptedMessages rs))).2 } := by
  rw [handleDeviceFd_eq, handleMessages_parent]

/-- The `add` of a platform device registers it under its short name. -/
example : (handleDeviceFd literalFnmatch firmwareDirsX86 1 false [] ⟨[], ⟨[], [], []⟩, [], []⟩
    [(.datagram ("add@/devices/platform/soc".toList ++ nul :: "ACTION=add".toList ++
        nul :: "DEVPATH=/devices/platform/soc".toList ++ nul :: "SUBSYSTEM=platform".toList),
      ⟨⟨none, none, false, fun _ => 0, true⟩, fwEnvNoFile⟩)]).map
      (fun st => st.platformNames.map (·.name)) = some ["soc".toList] := by
  decide

/-- In the child only the firmware handler runs. -/
theorem handleMessages_child (st : DeviceState) (ms : List (List Char × EventEnv)) :
    handleMessages fnmatch dirs fuel true st ms =
      (firmwareRun dirs fuel ms).map fun effs =>
        { st with firmwareEffects := st.firmwareEffects ++ effs } := by
  induction ms generalizing st with
  | nil => simp [handleMessages_nil, firmwareRun]
  | cons m ms ih =>
    obtain ⟨d, env⟩ := m
    simp only [handleMessages_cons, handleEvent, if_true, firmwareRun]
    cases handleFirmwareEvent dirs fuel env.firmware (eventOf d) with
    | none => rfl
    | some effs => simp [ih, Function.comp_def]

/-- **The child's loop is the firmware handler's run.** Whatever the buffer held and whatever
arrives, `handle_device_fd(true)` leaves the platform registry and the module state as they were
and appends what `handle_firmware_event` does for each handled message, in order; it has not
returned exactly when one of those runs has not. -/
theorem handle_device_fd_child_refines (buf : List Char) (st : DeviceState)
    (rs : List (Recv × EventEnv)) :
    handleDeviceFd fnmatch dirs fuel true buf st rs =
      (firmwareRun dirs fuel (acceptedMessages rs)).map fun effs =>
        { st with firmwareEffects := st.firmwareEffects ++ effs } := by
  rw [handleDeviceFd_eq, handleMessages_child]

/-- A firmware request for a file that no directory holds, once booted: the child aborts it. -/
example : (handleDeviceFd literalFnmatch firmwareDirsX86 1 true [] ⟨[], ⟨[], [], []⟩, [], []⟩
    [(.datagram ("add@/devices/pci0000:00/firmware/foo.bin".toList ++ nul :: "ACTION=add".toList ++
        nul :: "SUBSYSTEM=firmware".toList ++ nul :: "FIRMWARE=foo.bin".toList),
      ⟨⟨none, none, false, fun _ => 0, true⟩, fwEnvNoFile⟩)]).map (·.firmwareEffects) =
    some [.opened .loading, .opened .data, .write .loading "-1".toList, .close .data,
      .close .loading] := by
  decide

/-- A firmware `add` for `foo.bin`, as the kernel sends it. -/
def firmwareAddMessage : List Char :=
  "add@/devices/pci0000:00/firmware/foo.bin".toList ++ nul :: "ACTION=add".toList ++
    nul :: "SUBSYSTEM=firmware".toList ++ nul :: "FIRMWARE=foo.bin".toList

theorem acceptedMessages_replicate {d : List Char} (hne : d ≠ []) (hlt : d.length < ueventMsgLen)
    (env : EventEnv) (n : Nat) :
    acceptedMessages (List.replicate n (.datagram d, env)) = List.replicate n (d, env) := by
  induction n with
  | zero => rfl
  | succ n ih =>
    rw [List.replicate_succ, List.replicate_succ, acceptedMessages, if_neg hne, if_neg (by omega), ih]

theorem firmwareRun_replicate {dirs : List CStr} {fuel : Nat} {d : List Char} {env : EventEnv}
    {effs : List FwEffect} (h : handleFirmwareEvent dirs fuel env.firmware (eventOf d) = some effs)
    (n : Nat) :
    firmwareRun dirs fuel (List.replicate n (d, env)) = some (List.replicate n effs).flatten := by
  induction n with
  | zero => rfl
  | succ n ih => simp [List.replicate_succ, firmwareRun, h, ih]

theorem openFds_replicate_leak (fds : List Fd) (n : Nat) :
    (openFds fds (List.replicate n [.opened .loading, .opened .data]).flatten).length =
      fds.length + 2 * n := by
  induction n generalizing fds with
  | zero => rfl
  | succ n ih =>
    rw [List.replicate_succ, List.flatten_cons, openFds_append]
    simp only [openFds_opened, openFds, ih, List.length_cons]
    omega

/-- **Two descriptors leak per failed candidate path.** Every run of `process_firmware_event`
that returns closes all it opened, except one in which the `asprintf` of a candidate firmware
path fails: `goto data_free_out` then skips `close(data_fd)` and `close(loading_fd)`. In the
firmware child each such event leaves two more descriptors open, so `n` of them leave `2n`. -/
theorem process_firmware_event_leaves_descriptors_open :
    (∀ (env : FwEnv) (dirs : List CStr) (firmware : CStr) (fuel : Nat) (effs : List FwEffect),
      processFirmwareEvent env dirs firmware fuel = some effs →
        openFds [] effs = [] ∨ (openFds [] effs = [.data, .loading] ∧
          ∃ pass, searchDirs env pass (candidatePaths dirs firmware) = .allocFail)) ∧
    ∀ n : Nat, ∃ st, handleDeviceFd literalFnmatch firmwareDirsX86 1 true []
        ⟨[], ⟨[], [], []⟩, [], []⟩
        (List.replicate n (.datagram firmwareAddMessage,
          ⟨⟨none, none, false, fun _ => 0, true⟩, { fwEnvNoFile with pathOk := fun _ _ => false }⟩)) =
        some st ∧ (openFds [] st.firmwareEffects).length = 2 * n := by
  refine ⟨fun _ _ _ _ _ h => openFds_processFirmwareEvent h, fun n => ?_⟩
  have hrun := @firmwareRun_replicate firmwareDirsX86 1 firmwareAddMessage
    ⟨⟨none, none, false, fun _ => 0, true⟩, { fwEnvNoFile with pathOk := fun _ _ => false }⟩
    [.opened .loading, .opened .data] (by decide) n
  rw [handleDeviceFd_eq, handleMessages_child, acceptedMessages_replicate (by decide) (by decide), hrun]
  exact ⟨_, rfl, by simpa using openFds_replicate_leak [] n⟩

/-- **No blacklisted module is inserted by the parent's loop.** When a module's first entry in
the blacklist table is a `blacklist` line, no message that reaches `handle_device_fd(false)` gets
it passed to `insmod_by_dep`, whatever the tables read meanwhile. -/
theorem handle_device_fd_never_inserts_blacklisted (buf : List Char) (st : DeviceState)
    (rs : List (Recv × EventEnv)) {name : CStr} {e : ModuleBlacklist}
    (he : st.modules.blacklist.find? (·.name == name) = some e) (hbl : e.deferred = false) :
    ∃ st' added, handleDeviceFd fnmatch dirs fuel false buf st rs = some st' ∧
      st'.inserted = st.inserted ++ added ∧ name ∉ added := by
  rw [handleDeviceFd_eq, handleMessages_parent]
  exact ⟨_, _, rfl, rfl, moduleRun_not_inserted fnmatch he hbl _⟩

end Loop

/-- A device manager whose blacklist holds `wl12xx` receives an `add` for an SDIO function with
a matching alias. -/
theorem wl12xx_add_not_inserted :
    [(⟨"wl12xx".toList, false⟩ : ModuleBlacklist)].find? (·.name == "wl12xx".toList) =
        some ⟨"wl12xx".toList, false⟩ ∧
      ∃ st' added, handleDeviceFd literalFnmatch firmwareDirsX86 1 false []
          ⟨[], ⟨[⟨"wl12xx".toList, "sdio:c00v0097".toList⟩], [⟨"wl12xx".toList, false⟩], []⟩, [], []⟩
          [(.datagram ("add@/devices/mmc0/sdio".toList ++ nul :: "ACTION=add".toList ++
              nul :: "MODALIAS=sdio:c00v0097".toList),
            ⟨⟨none, none, false, fun _ => 0, true⟩, fwEnvNoFile⟩)] = some st' ∧
        st'.inserted = [] ++ added ∧ "wl12xx".toList ∉ added :=
  ⟨by decide, @handle_device_fd_never_inserts_blacklisted literalFnmatch firmwareDirsX86 1 []
    ⟨[], ⟨[⟨"wl12xx".toList, "sdio:c00v0097".toList⟩], [⟨"wl12xx".toList, false⟩], []⟩, [], []⟩
    _ "wl12xx".toList ⟨"wl12xx".toList, false⟩ (by decide) rfl⟩

end Ueventd
