import Phonebook.Data.JsonTree
import Phonebook.Lib.Linearizability
import Phonebook.Data.Layouts
import Phonebook.Server.Failures
import Phonebook.Server.Token
import Phonebook.Server.History
import Phonebook.Server.Linearization
import Phonebook.Server.Destruction
import Phonebook.Server.Removal
import Phonebook.Server.Snapshot
import Phonebook.Server.Validity
import Phonebook.Server.Uninitialised
import Phonebook.Server.Commutation
import Phonebook.Server.Opening
import Phonebook.Server.Restart
import Phonebook.Client.Completion
import Phonebook.Client.Exceptions
import Phonebook.Client.Remote
import Phonebook.Client.Overflow
import Phonebook.Client.Network
import Phonebook.Lib.Refinement
import Phonebook.Server.Progress
import Phonebook.Client.Delivery
import Phonebook.Server.Isolation
import Phonebook.Server.Admission
import Phonebook.Server.Stateful
import Phonebook.Server.Hosting
import Phonebook.Client.Registry
