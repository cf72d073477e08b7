/-
# Ueventd.Daemon — the parent's loop with the node handlers

`handle_device_fd(false)` hands each event to `handle_device_event`, which runs the module
loader, `fixup_sys_perms` and one of the block, platform and generic handlers. Two modules follow
parts of this: `Ueventd.DeviceFd` what the loop changes in the daemon's memory (the platform
registry, the module tables), and `Ueventd.Handlers` what the handlers of one event do to the file
system on a registry given with the event (`nodeRun`, with any registry before each event). Here
they are one loop, the same `recvLoop`, whose handler does both: each event's node handlers run on
the registry the loop has built from the messages before it.

The result (`handle_device_fd_node_calls`) is that this loop ends in the memory
`handle_device_fd(false)` ends in, and makes exactly the calls of `nodeRun` over the handled
events, each event with the registry that the platform events of the earlier messages leave. So
what is proved of `nodeRun` for any registry before each event (the credentials are put back,
every call stays under `/dev` or in the event's own directory of `/sys`) holds of the daemon.
-/
import Ueventd.DeviceFd
import Ueventd.Handlers

namespace Ueventd

/-- What the parent's loop changes: the state `handle_device_fd` tracks, the process
credentials, and the file-system calls made so far, in order. -/
structure ParentState where
  dev : DeviceState
  creds : Creds
  calls : List FsOp

section Parent

variable (fnmatch : Fnmatch) (perms : PermStore) (find : CStr → Option UeventdSubsystem)

/-- `handle_device_event(uevent)` in full, with the outcomes of the module loader's and of the
node handlers' calls. The node handlers read the registry as the event finds it: only a platform
event changes it, and a platform event makes no file-system call. -/
def handleDeviceEventFull (env : EventEnv × NodeEnv) (v : UeventView) (s : ParentState) :
    Option ParentState :=
  (deviceEventOps fnmatch perms s.dev.platformNames find env.2 v s.creds).map fun r =>
    ⟨handleDeviceEvent fnmatch env.1.modules v s.dev, r.1, s.calls ++ r.2⟩

/-- `handle_device_fd(false)` with `buf` in `msg`, each receive with the outcomes of its event's
calls. -/
def parentDeviceFd : List Char → ParentState → List (Recv × EventEnv × NodeEnv) →
    Option ParentState :=
  recvLoop (handleDeviceEventFull fnmatch perms find)

/-- The memory of the parent after handled messages, event by event. -/
def parentDev (dev : DeviceState) (ms : List (List Char × EventEnv × NodeEnv)) : DeviceState :=
  ms.foldl (fun dev m => handleDeviceEvent fnmatch m.2.1.modules (eventOf m.1) dev) dev

end Parent

/-- The events the node handlers see over handled messages: each with the registry that the
platform events of the messages before it leave, the outcomes of its calls, and the event. -/
def nodeEvents (reg : List PlatformNode) :
    List (List Char × EventEnv × NodeEnv) → List (List PlatformNode × NodeEnv × UeventView)
  | [] => []
  | (d, _, nenv) :: ms =>
    (reg, nenv, eventOf d) :: nodeEvents (platformRun reg (platformEventOf (eventOf d)).toList) ms

theorem platformRun_append (reg : List PlatformNode) (evs evs' : List PlatformEvent) :
    platformRun reg (evs ++ evs') = platformRun (platformRun reg evs) evs' :=
  List.foldl_append _ _ _ _

/-- The registry each event's node handlers see is the one the platform events of the messages
before it leave. -/
theorem nodeEvents_registry (reg : List PlatformNode) (ms : List (List Char × EventEnv × NodeEnv))
    (k : Nat) (e : List PlatformNode × NodeEnv × UeventView)
    (he : (nodeEvents reg ms)[k]? = some e) :
    e.1 = platformRun reg (platformEvents (ms.take k)) := by
  induction ms generalizing reg k with
  | nil => cases he
  | cons m ms ih =>
    obtain ⟨d, env, nenv⟩ := m
    cases k with
    | zero =>
      rw [nodeEvents, List.getElem?_cons_zero, Option.some.injEq] at he
      subst he
      rfl
    | succ k =>
      rw [nodeEvents, List.getElem?_cons_succ] at he
      rw [ih _ k he, List.take_succ_cons, platformEvents_cons, platformRun_append]

theorem acceptedMessages_map {α β : Type} (f : α → β) (rs : List (Recv × α)) :
    acceptedMessages (rs.map fun r => (r.1, f r.2)) =
      (acceptedMessages rs).map fun m => (m.1, f m.2) := by
  induction rs with
  | nil => rfl
  | cons r rs ih =>
    obtain ⟨d | _, env⟩ := r
    · simp only [List.map_cons, acceptedMessages]
      split_ifs <;> simp [ih]
    · rfl

section Parent

variable (fnmatch : Fnmatch) (perms : PermStore) (find : CStr → Option UeventdSubsystem)
  (dirs : List CStr) (fuel : Nat)

/-- The parent's memory is `handle_device_fd`'s. -/
theorem handleMessages_parentDev (dev : DeviceState) (ms : List (List Char × EventEnv × NodeEnv)) :
    handleMessages fnmatch dirs fuel false dev (ms.map fun m => (m.1, m.2.1)) =
      some (parentDev fnmatch dev ms) := by
  induction ms generalizing dev with
  | nil => rfl
  | cons m ms ih => exact ih _

/-- Over handled messages, the full handler makes the calls of `nodeRun` on the events as the
node handlers see them. -/
theorem messagesLoop_full (s : ParentState) (ms : List (List Char × EventEnv × NodeEnv)) :
    messagesLoop (handleDeviceEventFull fnmatch perms find) s ms =
      (nodeRun fnmatch perms find s.creds (nodeEvents s.dev.platformNames ms)).map fun r =>
        ⟨parentDev fnmatch s.dev ms, r.1, s.calls ++ r.2⟩ := by
  induction ms generalizing s with
  | nil => simp [messagesLoop, nodeEvents, nodeRun, parentDev]
  | cons m ms ih =>
    obtain ⟨d, env, nenv⟩ := m
    simp only [messagesLoop, handleDeviceEventFull, nodeEvents, nodeRun]
    rcases deviceEventOps fnmatch perms s.dev.platformNames find nenv (eventOf d) s.creds
      with _ | ⟨c, ops⟩
    · rfl
    · simp only [Option.map_some', Option.some_bind, ih, handleDeviceEvent_platformNames,
        Option.map_map]
      congr 1
      funext r
      simp [parentDev]

/-- **The daemon's loop runs the node handlers on the registry it builds.** Whatever the buffer
held and whatever arrives, with any outcome of every external call: `handle_device_fd(false)`
ends in the memory `handle_device_fd` ends in, and makes exactly the calls of `nodeRun` over the
handled messages' events, in order, where each event's handlers see the registry left by the
platform events of the messages handled before it. -/
theorem handle_device_fd_node_calls (buf : List Char) (s : ParentState)
    (rs : List (Recv × EventEnv × NodeEnv)) :
    ∃ dev : DeviceState,
      handleDeviceFd fnmatch dirs fuel false buf s.dev (rs.map fun r => (r.1, r.2.1)) = some dev ∧
      parentDeviceFd fnmatch perms find buf s rs =
        (nodeRun fnmatch perms find s.creds
          (nodeEvents s.dev.platformNames (acceptedMessages rs))).map
            (fun r => ⟨dev, r.1, s.calls ++ r.2⟩) ∧
      ∀ k e, (nodeEvents s.dev.platformNames (acceptedMessages rs))[k]? = some e →
        e.1 = platformRun s.dev.platformNames (platformEvents ((acceptedMessages rs).take k)) :=
  ⟨_, by rw [handleDeviceFd_eq, acceptedMessages_map, handleMessages_parentDev],
    by rw [parentDeviceFd, recvLoop_eq, messagesLoop_full],
    fun k e he => nodeEvents_registry _ _ k e he⟩

set_option maxRecDepth 4000 in
/-- A platform device's `add`, then a partition below it: the partition's by-name link is made
under the platform device's name, in the registry the first message built. -/
example : ((parentDeviceFd literalFnmatch .empty (fun _ => none) []
    ⟨⟨[], ⟨[], [], []⟩, [], []⟩, ⟨aidRoot, none⟩, []⟩
    [(.datagram ("add@/devices/platform/soc".toList ++ nul :: "ACTION=add".toList ++
        nul :: "DEVPATH=/devices/platform/soc".toList ++ nul :: "SUBSYSTEM=platform".toList),
      ⟨⟨none, none, false, fun _ => 0, true⟩, fwEnvNoFile⟩,
      ⟨none, false, ⟨true, true, true, true, true⟩, false⟩),
     (.datagram ("add@/devices/platform/soc/sda1".toList ++ nul :: "ACTION=add".toList ++
        nul :: "DEVPATH=/devices/platform/soc/sda1".toList ++
        nul :: "SUBSYSTEM=block".toList ++ nul :: "MAJOR=8".toList ++ nul :: "MINOR=1".toList ++
        nul :: "PARTNAME=boot".toList),
      ⟨⟨none, none, false, fun _ => 0, true⟩, fwEnvNoFile⟩,
      ⟨none, false, ⟨true, true, true, true, true⟩, false⟩)]).map
    fun s => s.calls.contains (.makeLinkInit "/dev/block/sda1".toList
      "/dev/block/platform/soc/by-name/boot".toList)) = some true := by
  decide

end Parent

end Ueventd
