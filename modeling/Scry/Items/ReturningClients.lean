import Scry.Items.ItemFeed
import Scry.Session.Reconnecting

/-! The items and the worn slots of clients that were away. -/

namespace Scry

namespace ItemCache

/-- A ring is put on while the client is there, and taken off for another one while it is away,
before it read of the first.
-/
def awayRun : List (ServedEvent ItemFeedOp) :=
  [.connect, .subscribe [] (fun _ => 1), .read,
    .operate (.onItemPacket (itemPacket 7 0 15)) (fun _ => 1), .lose, .disconnected 0,
    .operate (.onItemPacket (itemPacket 7 0 30)) (fun _ => 3),
    .operate (.onItemPacket (itemPacket 8 0 16)) (fun _ => 3), .connect,
    .subscribe [] (fun _ => 4)] ++ List.replicate 9 .read

/-- The cache, the server and the client after that. -/
def afterAway : Served ItemCache ItemBody :=
  Machine.exec feed.serve
    (FeedSource.opening ((fresh : ItemCache).setStorePath [] none true) "tab") awayRun

end ItemCache

end Scry
