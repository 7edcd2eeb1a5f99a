import Apollo.Serenafs.InodeIdentity
import Apollo.Serenafs.Mounting
import Apollo.Driver.RamDisk
import Apollo.Filesystem.MountTable
import Apollo.Dispatchqueue.ItemCounter
import Apollo.Dispatchqueue.Guarantees
import Apollo.Dispatchqueue.Termination
import Apollo.Dispatchqueue.Attendance
import Apollo.Pipe.Channels
import Apollo.Dispatcher.Semaphore
import Apollo.Dispatcher.LockProtocol
import Apollo.Dispatcher.LockInterrupts
import Apollo.Libc.MemoryFile
import Apollo.Libc.Calloc
import Apollo.Process.Descriptors
import Apollo.Process.Tombstones
import Apollo.Klib.HeapErrors
import Apollo.Driver.HIDEventQueue
import Apollo.Console.Vt52Parser
import Apollo.Driver.InterruptTables
import Apollo.Console.KeyMapMeaning
import Apollo.Console.InputHistory
import Apollo.Serenafs.Truncation
import Apollo.Serenafs.Offsets
import Apollo.Serenafs.SetFileInfo
import Apollo.Filesystem.ParentResolution
import Apollo.Serenafs.ReadDirectory
import Apollo.Serenafs.NewVolume
import Apollo.Serenafs.FailedCreation
import Apollo.Dispatcher.VirtualProcessorPool
import Apollo.Dispatcher.WaitDiscipline
import Apollo.Dispatcher.CallAsUser
import Apollo.Dispatchqueue.TimerQueue
import Apollo.Shell.StackBlocks
import Apollo.Libc.Strtok
import Apollo.Process.GemDosImage
import Apollo.Shell.Escapes
import Apollo.Libc.EnvironMap
import Apollo.Libc.Fopen
import Apollo.Shell.LineEditor
import Apollo.Libc.StreamItems
import Apollo.Klib.FormatStrings
import Apollo.Klib.ListSequences
import Apollo.Shell.History
import Apollo.Driver.EventDriver
import Apollo.Driver.HIDKeyRepeater
import Apollo.Console.TabStops
import Apollo.Console.CursorReports
import Apollo.Console.EditingCommands
import Apollo.Driver.TrackBounds
import Apollo.Driver.Zorro
