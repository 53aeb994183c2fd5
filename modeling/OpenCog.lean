import OpenCog.Atom
import OpenCog.AtomSpace.Basic
import OpenCog.AtomSpace.Invariant
import OpenCog.AtomSpace.Names
import OpenCog.AtomSpace.Noninterference
import OpenCog.AtomSpace.Threads
import OpenCog.Registry
import OpenCog.IsolateMesh
import OpenCog.Orchestrator.Basic
import OpenCog.Orchestrator.Locks
import OpenCog.Orchestrator.Messages
import OpenCog.Orchestrator.Dispatch
import OpenCog.Orchestrator.Lifecycle
import OpenCog.Orchestrator.Schedule
import OpenCog.Orchestrator.Register
import OpenCog.Orchestrator.Loop
import OpenCog.Orchestrator.Thread
