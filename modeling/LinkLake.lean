import LinkLake.Client.Agents
import LinkLake.Core.AgentEnrollment
import LinkLake.Core.EgressPolicy
import LinkLake.Core.Socks5Fragment.Arrival
import LinkLake.Core.TargetPool
import LinkLake.Core.UdpReassembly.Delivery
import LinkLake.Server.AdminAuth.SecondFactor
import LinkLake.Server.CertificateResolver
import LinkLake.Server.Coordination.DynamicPorts
import LinkLake.Server.Coordination.Exclusive
import LinkLake.Server.FleetOwnership
import LinkLake.Server.LoginThrottle
import LinkLake.Server.TargetHealth
import LinkLake.Server.TrafficControl.Networks
import LinkLake.Server.TrafficControl.RateWindow
import LinkLake.Server.UdpTunnel
import LinkLake.Server.UpdateTasks.Detail
import LinkLake.Server.UpdateTasks.FailClosed
import LinkLake.Server.UpdateTasks.Lease
import LinkLake.Server.UpdateTasks.Postgres.Equivalence
import LinkLake.Updater.RemoteResume.Evidence
import LinkLake.Updater.Transaction.Replacement
import LinkLake.Updater.Transaction.ServerRecovered
