import Ruletka.Hub.Proofs.Termination
import Ruletka.Hub.Proofs.Index
import Ruletka.Ledger.Proofs.Reload
import Ruletka.Ledger.Proofs.Conservation
import Ruletka.Hub.Proofs.Matcher
import Ruletka.Report.Proofs.Inert
import Ruletka.Report.Proofs.Accuser
import Ruletka.Star.Proofs.Paid
import Ruletka.Hub.Proofs.Rooms
import Ruletka.Hub.Proofs.Exposure
import Ruletka.Hub.Proofs.Offerer
import Ruletka.Report.Proofs.Caps
import Ruletka.Report.Proofs.Feud
import Ruletka.Contract.Proofs.Merge
import Ruletka.Contract.Proofs.Converge
import Ruletka.Hub.Proofs.Signal
import Ruletka.Report.Proofs.Panic
import Ruletka.Report.Proofs.Outed
import Ruletka.Star.Proofs.Talk
import Ruletka.Contract.Update
import Ruletka.Contract.Proofs.Valid
import Ruletka.Contract.Proofs.Thread
import Ruletka.Contract.Proofs.Authentic
import Ruletka.Contract.Agent
import Ruletka.Contract.Proofs.Tick
import Ruletka.Contract.Proofs.Agree
import Ruletka.Contract.Proofs.Seeds
import Ruletka.Star.Cache
import Ruletka.Star.Proofs.Cache
import Ruletka.Lib.Ties
import Ruletka.Hub.Friends
import Ruletka.Hub.Proofs.Friends
import Ruletka.Lib.Window
import Ruletka.Hub.Reports
import Ruletka.Hub.Proofs.Reports
import Ruletka.Report.Proofs.Taken
import Ruletka.Mobile.HubClient
import Ruletka.Mobile.Proofs.HubClient
import Ruletka.Hub.Proofs.Federated
import Ruletka.Report.Proofs.Authority
import Ruletka.Mobile.Handshake
import Ruletka.Mobile.Debate
import Ruletka.Mobile.Proofs.Handshake
import Ruletka.Mobile.Proofs.DebateMoves
import Ruletka.Mobile.Proofs.Debate
import Ruletka.Star.Force
import Ruletka.Star.Proofs.Force
import Ruletka.Hub.Proofs.Adoption
import Ruletka.Ledger.Proofs.Commit
import Ruletka.Ledger.Gifters
import Ruletka.Ledger.Proofs.Gifters
import Ruletka.Star.Proofs.Clawback
import Ruletka.Hub.Proofs.Target
import Ruletka.Chat.Dm
import Ruletka.Chat.Proofs.Dm
import Ruletka.Chat.Filter
import Ruletka.Chat.Proofs.Filter
import Ruletka.Hub.Proofs.Startup
import Ruletka.Hub.Proofs.Leaves
import Ruletka.Hub.Proofs.Four
import Ruletka.Hub.Proofs.Trio
import Ruletka.Report.Proofs.Gc
import Ruletka.Report.Proofs.Underage
import Ruletka.Contract.Proofs.Signed
import Ruletka.Contract.Proofs.Summary
import Ruletka.Contract.Proofs.Selection
import Ruletka.Contract.Proofs.Cleanup
import Ruletka.Contract.Proofs.Authority
import Ruletka.Chat.Proofs.Stretch
import Ruletka.Star.Mint
import Ruletka.Star.Proofs.Mint
import Ruletka.Mobile.MatchPeers
import Ruletka.Mobile.Proofs.MatchPeers
import Ruletka.Lib.Vote
import Ruletka.Geo.Merge
import Ruletka.Geo.Proofs.Merge
import Ruletka.Hub.Proofs.Limiter
import Ruletka.Lib.Calendar
import Ruletka.Lib.Checked
import Ruletka.Hub.UtcDay
import Ruletka.Hub.Proofs.UtcDay
import Ruletka.Lib.Lines
import Ruletka.Lib.Pattern
import Ruletka.Mobile.Sdp
import Ruletka.Mobile.Proofs.Sdp
import Ruletka.Hub.Proofs.Seats
import Ruletka.Hub.Proofs.Sane
import Ruletka.Hub.Proofs.Orderly
import Ruletka.Chat.Stranger
import Ruletka.Chat.Proofs.Stranger
import Ruletka.Federation.Exchange
import Ruletka.Federation.Net
import Ruletka.Federation.Proofs.Books
import Ruletka.Federation.Proofs.Net
import Ruletka.Lib.Replica
import Ruletka.Contract.Conversation
import Ruletka.Contract.Proofs.Conversation
import Ruletka.Federation.Proofs.Orphan
import Ruletka.Contract.Proofs.Honest
import Ruletka.Lib.Tally
import Ruletka.Metrics.Day
import Ruletka.Metrics.Store
import Ruletka.Metrics.Journal
import Ruletka.Metrics.Proofs.Calls
import Ruletka.Metrics.Proofs.Rows
import Ruletka.Metrics.Proofs.Days
