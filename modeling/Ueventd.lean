import Ueventd.CString
import Ueventd.Uevent
import Ueventd.UeventRecords
import Ueventd.Perms
import Ueventd.Platform
import Ueventd.Modules
import Ueventd.Firmware
import Ueventd.DeviceFd
import Ueventd.Symlinks
import Ueventd.Nodes
import Ueventd.Handlers
import Ueventd.Modprobe
import Ueventd.Coldboot
import Ueventd.Confinement
import Ueventd.Daemon
