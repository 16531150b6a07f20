import MinerTim.Lib.LittleEndian
import MinerTim.Lib.BackEdges
import MinerTim.Lib.Interleaving
import MinerTim.Lib.Arm64.Machine
import MinerTim.RandomX.Jit.MovImm64
import MinerTim.Lib.Arm64.LogicalImm
import MinerTim.Lib.Arm64.Prefetch
import MinerTim.RandomX.Types
import MinerTim.RandomX.Compile
import MinerTim.RandomX.WellFormed
import MinerTim.RandomX.Execute
import MinerTim.RandomX.ExecuteSpec
import MinerTim.RandomX.Termination
import MinerTim.RandomX.Aes
import MinerTim.Lib.Aes
import MinerTim.RandomX.SoftAes
import MinerTim.RandomX.AesPaths
import MinerTim.RandomX.AesPathsSpec
import MinerTim.RandomX.AesStream
import MinerTim.RandomX.Dataset
import MinerTim.RandomX.VmLoop
import MinerTim.RandomX.VmLoopSpec
import MinerTim.RandomX.Safety
import MinerTim.RandomX.Prefetch
import MinerTim.RandomX.Vm
import MinerTim.RandomX.VmSpec
import MinerTim.RandomX.Hashing
import MinerTim.Miner.Share
import MinerTim.Miner.Worker
import MinerTim.Miner.WorkerSpec
import MinerTim.Miner.Verifier
import MinerTim.Miner.Nonces
import MinerTim.Lib.Transition
import MinerTim.Lib.Framing
import MinerTim.Pool.Message
import MinerTim.Pool.Connection
import MinerTim.Pool.Steps
import MinerTim.Pool.Session
import MinerTim.Pool.Ledger
import MinerTim.Pool.Wire
import MinerTim.Pool.Rotation
import MinerTim.Pool.ReceiverLoop
import MinerTim.Pool.ReceiverSpec
import MinerTim.RandomX.Jit.BitmaskSpec
import MinerTim.RandomX.Jit.Branches
import MinerTim.Lib.Arm64.Block
import MinerTim.RandomX.Jit.BodyCall
import MinerTim.RandomX.FloatRanges
import MinerTim.RandomX.Jit.FloatMasks
import MinerTim.RandomX.Jit.LoopIteration
import MinerTim.RandomX.Jit.Residency
import MinerTim.Lib.Blake2
import MinerTim.Lib.Yields
import MinerTim.Lib.Argon2
import MinerTim.RandomX.Blake2b
import MinerTim.RandomX.Argon2d
import MinerTim.RandomX.Argon2dSpec
import MinerTim.Miner.Target
import MinerTim.Lib.Lines
import MinerTim.Pool.Lines
import MinerTim.Miner.HexSpec
import MinerTim.Pool.Tls
import MinerTim.Pool.Login
import MinerTim.RandomX.SuperscalarSpec
import MinerTim.Pool.HexCodec
import MinerTim.Cli.Switch
import MinerTim.RandomX.Reciprocal
import MinerTim.RandomX.Isa
import MinerTim.RandomX.IsaSpec
import MinerTim.Lib.BlockReader
import MinerTim.RandomX.Blake2Gen
import MinerTim.Lib.SharedThreads
import MinerTim.Lib.Lockstep
import MinerTim.RandomX.ControlWord
import MinerTim.RandomX.Jit.ArmCode
import MinerTim.Miner.Threads
import MinerTim.Miner.ThreadsSpec
import MinerTim.Miner.Statistics
import MinerTim.Miner.Stopping
import MinerTim.Lib.Refinement
import MinerTim.RandomX.Algorithm
import MinerTim.RandomX.AlgorithmSpec
import MinerTim.RandomX.DatasetItem
import MinerTim.RandomX.FromKey
import MinerTim.Lib.Arm64.Fetch
import MinerTim.RandomX.Jit.Memory
import MinerTim.RandomX.Jit.MemorySpec
import MinerTim.Lib.Locking
import MinerTim.Miner.Locks
