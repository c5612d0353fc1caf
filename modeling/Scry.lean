import Scry.Backend.EqlDispatch
import Scry.Backend.GlobalSinks
import Scry.Backend.UnsizedRows
import Scry.Capture.RemoteCapture
import Scry.Capture.Replay
import Scry.Capture.VPacket
import Scry.Capture.WholePath
import Scry.Categories.CurrentMembership
import Scry.Categories.Matching
import Scry.Categories.RoundTrip
import Scry.Dispatch.SizeChecks
import Scry.Dispatch.Unmapped
import Scry.Filters.LevelRanges
import Scry.Filters.RoundTrip
import Scry.Filters.RulesFeed
import Scry.Filters.TypeRegistry
import Scry.Guilds.GuildClients
import Scry.Guilds.GuildFile
import Scry.Guilds.GuildTags
import Scry.Items.ItemFeed
import Scry.Items.ItemLayout
import Scry.Items.ReturningClients
import Scry.Items.StoredItems
import Scry.Items.WornSlots
import Scry.Library.Keyed
import Scry.Library.Machine
import Scry.Library.OrderedMap
import Scry.Library.Recent
import Scry.Library.Search
import Scry.Library.Serial
import Scry.Library.Traced
import Scry.Maps.OneForOne
import Scry.Maps.SavedMap
import Scry.Maps.Segments
import Scry.Maps.SoeAccess
import Scry.Messages.Restart
import Scry.Messages.Substitution
import Scry.Messages.UcsChannels
import Scry.PacketStream.CacheOwnership
import Scry.PacketStream.CacheWindow
import Scry.PacketStream.FragmentBounds
import Scry.PacketStream.Handoff
import Scry.PacketStream.Isolation
import Scry.PacketStream.Reassembly
import Scry.PacketStream.RoundTrips
import Scry.PacketStream.SequencedDelivery
import Scry.PacketStream.Unwrapping
import Scry.Preferences.PrefsBroker
import Scry.Preferences.UnreadableFile
import Scry.Registry.Attribution
import Scry.Registry.PromotionOrder
import Scry.Registry.Rezone
import Scry.Session.GoldenRecording
import Scry.Session.HandoffState
import Scry.Session.Picker
import Scry.Session.RateLimit
import Scry.Session.Resume
import Scry.SpawnPoints.PointStream
import Scry.SpawnPoints.RespawnTimes
import Scry.SpawnPoints.Saves
import Scry.SpawnPoints.SpawnFile
import Scry.SpawnPoints.ZoneFileNames
import Scry.Spawns.DeadSpawns
import Scry.Spawns.Experience
import Scry.Spawns.FilterFlags
import Scry.Spawns.GroupPanel
import Scry.Spawns.HitPoints
import Scry.Spawns.LateClients
import Scry.Spawns.PlayerOnce
import Scry.Spawns.Reannounced
import Scry.Spawns.Roster
import Scry.Spawns.WalkPaths
import Scry.Spawns.ZoneEntries
import Scry.Spells.BuffTimer
import Scry.Spells.ClientLists
import Scry.Spells.Countdown
import Scry.Spells.SpellTable
import Scry.Wire.Framing
import Scry.Wire.StandardChecksum
import Scry.Zones.DateTimeMgr
import Scry.Zones.MapFolders
import Scry.Zones.RejectedPackets
import Scry.Zones.ZoneData
