import Mototeca.AttachmentCap
import Mototeca.Concealment
import Mototeca.Deadlock
import Mototeca.DemoFeed
import Mototeca.Discards
import Mototeca.Drafts
import Mototeca.Files
import Mototeca.LowerMileage
import Mototeca.Migrations
import Mototeca.ObjectStorage
import Mototeca.OutboxStore
import Mototeca.PhoneInput
import Mototeca.Photos
import Mototeca.Publishing
import Mototeca.RateLimit
import Mototeca.RecordForm
import Mototeca.RideRuns
import Mototeca.Sessions
import Mototeca.SignIn
import Mototeca.StoredRows
import Mototeca.Throttle
