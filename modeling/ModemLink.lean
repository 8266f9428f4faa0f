import ModemLink.Main
import ModemLink.Bench
import ModemLink.Proofs.Framer.WireLine
import ModemLink.Proofs.Text.Utf8
import ModemLink.Proofs.Receiver.Handled
import ModemLink.Proofs.Receiver.Requests
import ModemLink.Proofs.Engine.Books
import ModemLink.Proofs.Engine.Waiting
import ModemLink.Proofs.Text.Words
import ModemLink.Proofs.Family.Cellular
import ModemLink.Proofs.Receiver.Continued
import ModemLink.Proofs.Line
import ModemLink.Proofs.Receiver.Traffic
import ModemLink.Proofs.Receiver.Reply
import ModemLink.Proofs.Engine.Reading
import ModemLink.Proofs.Session.Dialogue
import ModemLink.Proofs.Session.Interplay
import ModemLink.Proofs.Session.Standing
import ModemLink.Proofs.Session.Calling
import ModemLink.Proofs.Session.Serving
import ModemLink.Proofs.Session.Clocked
import ModemLink.Proofs.Session.Refusals
import ModemLink.Proofs.Session.Traces
import ModemLink.Proofs.Session.Dropped
import ModemLink.Proofs.Session.Timing
import ModemLink.Proofs.Session.Course
import ModemLink.Proofs.Engine.Notices
import ModemLink.Proofs.Events.Relay
import ModemLink.Proofs.Events.Handover
import ModemLink.Proofs.Session.Sleeping
import ModemLink.Proofs.Session.Poised
import ModemLink.Proofs.Session.Attached
import ModemLink.Proofs.Session.Deadline
import ModemLink.Proofs.Session.Pacing
import ModemLink.Proofs.Receiver.Chunks
import ModemLink.Proofs.Framer.Splitting
import ModemLink.Proofs.Event.Lookup
import ModemLink.Proofs.Event.WordTree
import ModemLink.Proofs.Event.Patterns
import ModemLink.Proofs.Receiver.Capacity
import ModemLink.Proofs.Receiver.Accounts
import ModemLink.Proofs.Event.Reach
import ModemLink.Proofs.Family.Announced
import ModemLink.Proofs.Engine.Loss
import ModemLink.Proofs.Session.Loss
import ModemLink.Proofs.Line.CommandWord
import ModemLink.Proofs.Text.Case
import ModemLink.Proofs.Line.Case
import ModemLink.Proofs.Text.Fitting
import ModemLink.Proofs.Text.Boundary
import ModemLink.Proofs.Receiver.Truncation
import ModemLink.Proofs.Session.FailedSend
import ModemLink.Proofs.Line.FailureDetail
import ModemLink.Proofs.Line.Confirmation
import ModemLink.Proofs.Line.Recognition
import ModemLink.Proofs.Event.Places
import ModemLink.Proofs.Event.Validity
import ModemLink.Proofs.Event.FirstFault
import ModemLink.Proofs.Event.Levels
import ModemLink.Proofs.Event.Making
import ModemLink.Proofs.Event.WellFormed
import ModemLink.Proofs.Event.Creation
import ModemLink.Proofs.Event.Listing
import ModemLink.Proofs.Event.Appending
import ModemLink.Proofs.Link.Pipe
import ModemLink.Proofs.Receiver.Capture
import ModemLink.Proofs.Line.Offsets
import ModemLink.Proofs.Framer.Overlong
import ModemLink.Proofs.Event.Insertion
import ModemLink.Proofs.Session.Blocking
