import TossSleeve.Ticks
import TossSleeve.Proof.HardCap
import TossSleeve.Proof.Equivalence
import TossSleeve.Proof.Terminal
import TossSleeve.Proof.Retry
import TossSleeve.Proof.Settlement
import TossSleeve.Proof.Reservation
import TossSleeve.Proof.SellExecution
import TossSleeve.Proof.Buckets
import TossSleeve.Proof.Isolation
import TossSleeve.Proof.Snapshots
import TossSleeve.Proof.CostBasis
import TossSleeve.Proof.Undecided
import TossSleeve.Proof.Decoding
import TossSleeve.Proof.Undecodable
import TossSleeve.Proof.Rejections
import TossSleeve.Proof.EndToEnd
import TossSleeve.Proof.Cancelling
import TossSleeve.Proof.Recovery
import TossSleeve.Proof.Sending
import TossSleeve.Proof.Interchange
import TossSleeve.Proof.Processes
import TossSleeve.Proof.Books
import TossSleeve.Proof.Outcomes
import TossSleeve.Proof.Histories
import TossSleeve.Proof.Traffic
import TossSleeve.Proof.LiveToken
import TossSleeve.Proof.Repeats
import TossSleeve.Proof.Durable
import TossSleeve.Proof.Promptness
import TossSleeve.Proof.Endings
import TossSleeve.Proof.Quotes
import TossSleeve.Proof.Overspend
