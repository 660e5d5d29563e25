import OpenMusicPlayer.Client
import OpenMusicPlayer.RetrySound
import OpenMusicPlayer.Percent
import OpenMusicPlayer.Uuid
import OpenMusicPlayer.Search
import OpenMusicPlayer.Gate
import OpenMusicPlayer.GateSound
import OpenMusicPlayer.CallSound
import OpenMusicPlayer.Replay
import OpenMusicPlayer.Serde
import OpenMusicPlayer.SerdeRoundTrip
import OpenMusicPlayer.SerdeMap
import OpenMusicPlayer.Catalog
