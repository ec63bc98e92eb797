import SafeNd.Keys
import SafeNd.SharedData
import SafeNd.Keypair
import SafeNd.Permissions
import SafeNd.Sequence.Basic
import SafeNd.Sequence.Run
import SafeNd.Sequence.Log
import SafeNd.Sequence.Causal
import SafeNd.Sequence.Reachable
import SafeNd.Sequence.Reads
import SafeNd.Data
import SafeNd.Money
