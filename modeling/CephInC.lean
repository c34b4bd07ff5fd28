import CephInC.Common.Proofs.Map
import CephInC.Common.Proofs.ListRuns
import CephInC.Common.Proofs.RbHeapRuns
import CephInC.Common.Proofs.BufferRuns
import CephInC.Common.Proofs.Osdmap
import CephInC.Common.Proofs.Torn
import CephInC.Common.Proofs.Midway
import CephInC.Common.Proofs.Untrusted
import CephInC.Os.Proofs.Partial
import CephInC.Os.Proofs.Agree
import CephInC.Os.Proofs.Commute
import CephInC.Os.Proofs.Run
import CephInC.Os.Proofs.Touched
import CephInC.Os.Proofs.Logged
import CephInC.Os.Proofs.Accepted
import CephInC.Os.Proofs.Update
import CephInC.Os.Proofs.Overlay
import CephInC.Os.Proofs.UpdateLaw
import CephInC.Os.Proofs.Calls
import CephInC.Os.Proofs.WriteRange
import CephInC.Os.Proofs.Intact
import CephInC.Os.Proofs.Listing
import CephInC.Os.Proofs.Guarded
import CephInC.Os.Proofs.ObjectCalls
import CephInC.Os.Proofs.Free
import CephInC.Osd.Maps
import CephInC.Osd.Proofs.Dispatch
import CephInC.Osd.Proofs.Stored
import CephInC.Osd.Proofs.Paths
import CephInC.Osd.Proofs.Create
import CephInC.Message.Proofs.RoundTrip
import CephInC.Message.Proofs.Streams
import CephInC.Message.Proofs.Failing
import CephInC.Message.Proofs.Adding
import CephInC.Message.Proofs.Stop
import CephInC.Message.Proofs.Stores
import CephInC.Message.Proofs.Arrives
import CephInC.Message.Proofs.Sockets
import CephInC.Message.Proofs.GetConn
import CephInC.Message.Proofs.Delivered
import CephInC.Client.Proofs.Listed
import CephInC.Client.Proofs.Acks
import CephInC.Client.Proofs.CallMem
import CephInC.Cluster.Proofs.Durable
