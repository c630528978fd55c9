import Hammer2Vfs.Basic
import Hammer2Vfs.Pfs
import Hammer2Vfs.Mount
import Hammer2Vfs.Sweep
import Hammer2Vfs.System
import Hammer2Vfs.Refs
import Hammer2Vfs.Invariant
import Hammer2Vfs.MountInv
import Hammer2Vfs.Registry
import Hammer2Vfs.Asserts
import Hammer2Vfs.Attach
import Hammer2Vfs.FreeScan
import Hammer2Vfs.Register
import Hammer2Vfs.Shape
import Hammer2Vfs.Unmount
import Hammer2Vfs.MountTable
import Hammer2Vfs.Footprint
import Hammer2Vfs.Table
import Hammer2Vfs.Statfs
import Hammer2Vfs.Owner
import Hammer2Vfs.Leak
