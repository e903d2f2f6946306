import NeuVector.Agent.ConnectionMap
import NeuVector.Agent.FileProfileRuns
import NeuVector.Agent.PolicyPublishing
import NeuVector.Agent.PolicySender
import NeuVector.Controller.AccessControl
import NeuVector.Controller.AdmissionSets
import NeuVector.Controller.ConversationAction
import NeuVector.Controller.CrdRuleOrder
import NeuVector.Controller.DispatcherLeadership
import NeuVector.Controller.DispatcherPlacement
import NeuVector.Controller.GroupMembership
import NeuVector.Controller.LearnedCoverage
import NeuVector.Controller.Lockout
import NeuVector.Controller.RuleMove
import NeuVector.Controller.RuleUuid
import NeuVector.Controller.ThreatIndex
import NeuVector.Controller.TokenRevocation
import NeuVector.DataPath.ConnectGathering
import NeuVector.DataPath.DlpSearch
import NeuVector.DataPath.FqdnDeletion
import NeuVector.DataPath.FragmentExact
import NeuVector.DataPath.FragmentIp6
import NeuVector.DataPath.HttpKeepAlive
import NeuVector.DataPath.HttpLengths
import NeuVector.DataPath.HttpOrderDependence
import NeuVector.DataPath.InternalSubnets
import NeuVector.DataPath.PolicyIsolation
import NeuVector.DataPath.SessionPolicy
import NeuVector.DataPath.SessionTick
import NeuVector.DataPath.SslHello
import NeuVector.DataPath.TcpStream
import NeuVector.DataPath.ThreatLog
import NeuVector.DataPath.ThreatRing
