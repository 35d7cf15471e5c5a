import Sayaaratukcom.Lib.Runs
import Sayaaratukcom.Lib.Keyed
import Sayaaratukcom.Lib.Script
import Sayaaratukcom.Lib.Navigator
import Sayaaratukcom.Lib.Threads
import Sayaaratukcom.Lib.Optimistic
import Sayaaratukcom.Models
import Sayaaratukcom.Store
import Sayaaratukcom.SendOrder
import Sayaaratukcom.AllOrNothing
import Sayaaratukcom.Functions
import Sayaaratukcom.Wallet
import Sayaaratukcom.Redelivery
import Sayaaratukcom.Deployment
import Sayaaratukcom.ConcurrentRefunds
import Sayaaratukcom.World
import Sayaaratukcom.Terms
import Sayaaratukcom.Payments
import Sayaaratukcom.RefundBound
import Sayaaratukcom.PaymentOutcome
import Sayaaratukcom.Agreement
import Sayaaratukcom.Finality
import Sayaaratukcom.Payment
import Sayaaratukcom.Account
import Sayaaratukcom.Lib.Documents
import Sayaaratukcom.Json
import Sayaaratukcom.Forms
import Sayaaratukcom.Charge
import Sayaaratukcom.Readable
import Sayaaratukcom.Providers
import Sayaaratukcom.Acknowledgement
import Sayaaratukcom.Session
import Sayaaratukcom.SignIn
import Sayaaratukcom.SelectAddress
import Sayaaratukcom.OrderForm
import Sayaaratukcom.Chat
import Sayaaratukcom.TimeAgo
import Sayaaratukcom.RepeatedTaps
import Sayaaratukcom.Upload
import Sayaaratukcom.SignInPages
import Sayaaratukcom.SignUp
import Sayaaratukcom.WalletSheet
import Sayaaratukcom.Lib.Serial
import Sayaaratukcom.Progress
import Sayaaratukcom.Serializable
import Sayaaratukcom.Lib.Paths
import Sayaaratukcom.History
import Sayaaratukcom.Lib.Deliveries
import Sayaaratukcom.Settlement
import Sayaaratukcom.RefundCount
import Sayaaratukcom.Notifications
import Sayaaratukcom.Lib.Retry
import Sayaaratukcom.Retries
import Sayaaratukcom.Listings
import Sayaaratukcom.FormPages
import Sayaaratukcom.Overcharge
import Sayaaratukcom.Guests
import Sayaaratukcom.Conversations
import Sayaaratukcom.PageStacks
import Sayaaratukcom.RefundAttempts
import Sayaaratukcom.Invocations
