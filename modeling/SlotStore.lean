import SlotStore.Completion.Registry
import SlotStore.Record.Reader
import SlotStore.Store.Lifecycle
import SlotStore.Store.Queries
import SlotStore.Store.Shrink
import SlotStore.Volume.Bench
import SlotStore.Proofs.Desk.Cells
import SlotStore.Proofs.Desk.Reopen
import SlotStore.Proofs.FieldPath
import SlotStore.Proofs.Index.History
import SlotStore.Proofs.Lock.Drain
import SlotStore.Proofs.Lock.Exclusion
import SlotStore.Proofs.Lock.Gate
import SlotStore.Proofs.Query.Source
import SlotStore.Proofs.Record.Pieces
import SlotStore.Proofs.Record.Reader
import SlotStore.Proofs.Store.Course
import SlotStore.Proofs.Store.Deleted
import SlotStore.Proofs.Store.Extremes
import SlotStore.Proofs.Store.Fallback
import SlotStore.Proofs.Store.Halfway
import SlotStore.Proofs.Store.Hidden
import SlotStore.Proofs.Store.Indexed
import SlotStore.Proofs.Store.Layout
import SlotStore.Proofs.Store.Map
import SlotStore.Proofs.Store.Refused
import SlotStore.Proofs.Store.Reindex
import SlotStore.Proofs.Store.Streaming
import SlotStore.Proofs.Store.Undone
import SlotStore.Proofs.Toc.BestFit
import SlotStore.Proofs.Toc.Gathered
import SlotStore.Proofs.Volume.Awaited
import SlotStore.Proofs.Volume.Persist
import SlotStore.Proofs.Volume.Recovery
import SlotStore.Proofs.Volume.Versions
