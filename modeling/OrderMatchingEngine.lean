import OrderMatchingEngine.Properties.Aggregates
import OrderMatchingEngine.Properties.AllOrNothing
import OrderMatchingEngine.Properties.Anonymous
import OrderMatchingEngine.Properties.Authorization
import OrderMatchingEngine.Properties.BookInvariant
import OrderMatchingEngine.Properties.CancelExact
import OrderMatchingEngine.Properties.Collisions
import OrderMatchingEngine.Properties.Conservation
import OrderMatchingEngine.Properties.CrashRecovery
import OrderMatchingEngine.Properties.CurrentViews
import OrderMatchingEngine.Properties.Deframing
import OrderMatchingEngine.Properties.DepthQuote
import OrderMatchingEngine.Properties.ExecutionStreams
import OrderMatchingEngine.Properties.Fates
import OrderMatchingEngine.Properties.FokCompleteness
import OrderMatchingEngine.Properties.ImmediateOrCancel
import OrderMatchingEngine.Properties.Isolation
import OrderMatchingEngine.Properties.LimitPrices
import OrderMatchingEngine.Properties.ListenerProgress
import OrderMatchingEngine.Properties.LogFlush
import OrderMatchingEngine.Properties.LogWakeUps
import OrderMatchingEngine.Properties.MakerReports
import OrderMatchingEngine.Properties.MarketStreams
import OrderMatchingEngine.Properties.Mirror
import OrderMatchingEngine.Properties.OrderIds
import OrderMatchingEngine.Properties.OutgoingStream
import OrderMatchingEngine.Properties.Ownership
import OrderMatchingEngine.Properties.PacketReads
import OrderMatchingEngine.Properties.Pool
import OrderMatchingEngine.Properties.PriceTime
import OrderMatchingEngine.Properties.ReceiveBuffers
import OrderMatchingEngine.Properties.Refusals
import OrderMatchingEngine.Properties.Replay
import OrderMatchingEngine.Properties.ReportingBook
import OrderMatchingEngine.Properties.ResponsePath
import OrderMatchingEngine.Properties.RequestWire
import OrderMatchingEngine.Properties.Segmentation
import OrderMatchingEngine.Properties.ServerLoop
import OrderMatchingEngine.Properties.SharedBooks
import OrderMatchingEngine.Properties.ShellClients
import OrderMatchingEngine.Properties.ShellListening
import OrderMatchingEngine.Properties.SnapshotDecoding
import OrderMatchingEngine.Properties.Spectators
import OrderMatchingEngine.Properties.Splitting
import OrderMatchingEngine.Properties.Subscribers
import OrderMatchingEngine.Properties.SymbolDecoding
import OrderMatchingEngine.Properties.TakerReports
import OrderMatchingEngine.Properties.Termination
import OrderMatchingEngine.Properties.ThreadProgress
import OrderMatchingEngine.Properties.TopQuote
import OrderMatchingEngine.Properties.UnassignedBytes
