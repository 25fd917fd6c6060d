import VclRs.Model.Dns
import VclRs.Framing
import VclRs.Exchange
import VclRs.Custody.Bind
import VclRs.Readiness
import VclRs.Custody.Stream
import VclRs.Interaction.Pool
import VclRs.World
import VclRs.Leaks
import VclRs.Care
import VclRs.Waiters
import VclRs.Workers.Roster
import VclRs.Workers.Entries
import VclRs.Custody.Query
import VclRs.Rehearsal
import VclRs.Affinity
import VclRs.Budget
import VclRs.Deadline
import VclRs.Wakeups.Delivery
import VclRs.Lifecycle.Return
import VclRs.Lifecycle.Enlistment
import VclRs.Prewarm.Completion
import VclRs.Datagrams.Delivery
import VclRs.Datagrams.Answers
import VclRs.Streams.Agreement
import VclRs.Interaction.Tenancy
import VclRs.Parking.Ticks
import VclRs.Marshalling
import VclRs.Sourcing
import VclRs.Ephemeral
import VclRs.Settling
import VclRs.Strays
import VclRs.Drainage
import VclRs.Pace
import VclRs.Executor.Handshake
import VclRs.Protocol.Conformance
import VclRs.Wakeups.Fairness
import VclRs.Streams.Usage
import VclRs.Datagrams.OneShot
import VclRs.Datagrams.Posting
import VclRs.Echo
import VclRs.Departures
import VclRs.Congruence
import VclRs.Arrivals
import VclRs.Prewarm.Starvation
import VclRs.Workers.Slots
import VclRs.Blame
import VclRs.Harness
import VclRs.RoundTrip
