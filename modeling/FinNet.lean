import FinNet.GoString
import FinNet.Strconv
import FinNet.CompositeKey
import FinNet.Model
import FinNet.Store
import FinNet.Chaincode
import FinNet.Handlers
import FinNet.Invariant
import FinNet.Transfers
import FinNet.Accounts
import FinNet.Balances
import FinNet.Keys
import FinNet.History
import FinNet.Ledger
import FinNet.Refinement
import FinNet.Money
import FinNet.Representation
import FinNet.Commute
