import Dot1xCP.Broker.JsonSound
import Dot1xCP.Auth.Layout
import Dot1xCP.Core.Handles
import Dot1xCP.Broker.Fragments
import Dot1xCP.Core.Fidelity
import Dot1xCP.Core.Polling
import Dot1xCP.Core.Events
import Dot1xCP.Com.Server
import Dot1xCP.Core.Callback
import Dot1xCP.Core.Recovery
import Dot1xCP.Core.Races
import Dot1xCP.Core.Submission
import Dot1xCP.Core.Throttle
import Dot1xCP.Core.References
import Dot1xCP.Auth.Position
import Dot1xCP.Broker.Environment
import Dot1xCP.Broker.JsonUtf8
import Dot1xCP.Broker.JsonWalk
import Dot1xCP.Broker.ReadBounds
import Dot1xCP.Setup.AppSettings
import Dot1xCP.Setup.Interrupted
import Dot1xCP.Setup.Failures
import Dot1xCP.Setup.RuntimeJson
import Dot1xCP.Core.Concurrent
import Dot1xCP.Core.Locking
import Dot1xCP.Auth.Packages
import Dot1xCP.Broker.PipeName
import Dot1xCP.Setup.Netsh
import Dot1xCP.Log.Secrets
import Dot1xCP.Core.Waiting
import Dot1xCP.Broker.Untorn
import Dot1xCP.Core.Sent
