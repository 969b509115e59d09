import Botid.Machine
import Botid.Identities
import Botid.ShmPub
import Botid.World
import Botid.Hooks
import Botid.PendingRemovals
import Botid.GamedataLayout
import Botid.PingBase
import Botid.Registry
import Botid.RealPlayers
import Botid.Published
import Botid.Adoption
import Botid.PutInServer
import Botid.MapHint
import Botid.Window
import Botid.Exposure
import Botid.FreeIdentity
import Botid.Unexposed
import Botid.Settings
import Botid.UnknownField
import Botid.WindowEnd
import Botid.FullHold
import Botid.Suspension
import Botid.Incarnations
import Botid.BotRecords
import Botid.WrittenSettings
import Botid.ShmRegion
import Botid.SharedMemoryClient
import Botid.ColorStability
import Botid.StuckColors
import Botid.ColorBudget
import Botid.NamedKick
import Botid.Robust
import Botid.ClearedCopies
import Botid.SingleSlot
import Botid.LanguageTag
import Botid.PatternSearch
import Botid.PersonaNames
import Botid.PoolAccounting
import Botid.Snapshots
import Botid.Revalidation
import Botid.Effects
import Botid.LivePlayers
import Botid.Orphans
import Botid.RegionLifetime
import Botid.StartUp
import Botid.EntityList
import Botid.UtilRemove
import Botid.PublishedPersonas
import Botid.Decorations
import Botid.ColorTimers
import Botid.LeaseOwners
import Botid.CopyTables
import Botid.KickCommands
import Botid.HeldWindow
import Botid.SuspendedRun
