import Metafora.Task
import Metafora.Path
import Metafora.Json
import Metafora.GoArith
import Metafora.Consumer.State
import Metafora.Consumer.Step
import Metafora.Consumer.Lifecycle
import Metafora.Consumer.Invariant
import Metafora.Consumer.Safety
import Metafora.Consumer.Shutdown
import Metafora.Consumer.Progress
import Metafora.Balancer.Mux
import Metafora.Embedded.Coordinator
import Metafora.Etcd.History
import Metafora.Etcd.Watch
import Metafora.Etcd.Command
import Metafora.Etcd.Commander
import Metafora.Etcd.Task
import Metafora.Etcd.Submit
import Metafora.Etcd.Refresher
import Metafora.Embedded.Pair
import Metafora.Etcd.Watcher
import Metafora.Etcd.Blocking
import Metafora.Balancer.TypeMux
import Metafora.Balancer.Resource
import Metafora.Balancer.Fair
