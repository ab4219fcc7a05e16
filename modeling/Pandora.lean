import Pandora.Payments.Once
import Pandora.Sessions.Revocation
import Pandora.Purchases.Limit
import Pandora.Giftcards.Draw
import Pandora.Agent.Deltas
import Pandora.Agent.Answered
import Pandora.Agent.Served
import Pandora.Traffic.Account
import Pandora.Dataplane.Counted
import Pandora.Dataplane.Removal
import Pandora.Dataplane.Downlink
import Pandora.Dataplane.Installs
import Pandora.Dataplane.Broker
import Pandora.Dataplane.MuxBilling
import Pandora.Dataplane.HandedOver
import Pandora.Upgrade.Outcome
import Pandora.Nodes.StrictDevices
import Pandora.Giftcards.Once
import Pandora.Realtime.Revoked
import Pandora.Identity.Passwords
import Pandora.Identity.Registered
import Pandora.Sessions.Grace
import Pandora.Subscriptions.Rescues
import Pandora.Subscriptions.Stacking
import Pandora.Subscriptions.Cycles
import Pandora.Dataplane.Replays
import Pandora.Nodes.Rosters
import Pandora.Dataplane.MuxEnds
import Pandora.Payments.Received
import Pandora.Sessions.Attempts
import Pandora.Dataplane.Drains
