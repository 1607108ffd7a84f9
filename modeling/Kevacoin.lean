import Kevacoin.Data.SortedAssoc
import Kevacoin.Data.Overlay
import Kevacoin.Data.Except
import Kevacoin.Data.Loop
import Kevacoin.Data.Bytes
import Kevacoin.Data.Canonical
import Kevacoin.Data.Median
import Kevacoin.Data.MerkleTree
import Kevacoin.Data.LongDivision
import Kevacoin.Data.Mantissa
import Kevacoin.Data.Radix
import Kevacoin.Data.Slots
import Kevacoin.Data.Simulation
import Kevacoin.Data.Memo
import Kevacoin.Script.Script
import Kevacoin.Script.Keva
import Kevacoin.Script.Interpreter
import Kevacoin.Script.ScriptNum
import Kevacoin.Primitives.Transaction
import Kevacoin.Script.Verify
import Kevacoin.Script.KevaSpend
import Kevacoin.Keva.Common
import Kevacoin.Coins.View
import Kevacoin.Coins.Cache
import Kevacoin.Coins.Stack
import Kevacoin.Coins.Names
import Kevacoin.Keva.Iterate
import Kevacoin.Keva.Main
import Kevacoin.Primitives.Block
import Kevacoin.Encoding.Base58
import Kevacoin.Chain.BlockIndex
import Kevacoin.Chain.MedianTime
import Kevacoin.Chain.VersionBits
import Kevacoin.Chain.PoW
import Kevacoin.Chain.Retarget
import Kevacoin.Chain.Work
import Kevacoin.Chain.Compact
import Kevacoin.Net.BlockEncodings
import Kevacoin.Primitives.Serialize
import Kevacoin.Coins.Compressor
import Kevacoin.Primitives.TxSerialize
import Kevacoin.Primitives.VarInt
import Kevacoin.Prevector.Prevector
import Kevacoin.Prevector.Methods
import Kevacoin.Prevector.Refinement
import Kevacoin.Rpc.Mining
import Kevacoin.Cryptonote.TxExtra
import Kevacoin.Rpc.Template
import Kevacoin.Consensus.Merkle
import Kevacoin.Consensus.MerkleBranch
import Kevacoin.Validation.TxVerify
import Kevacoin.Consensus.TxCheck
import Kevacoin.Validation.ConnectBlock
import Kevacoin.Validation.Disconnect
import Kevacoin.Keva.MemPool
import Kevacoin.Validation.KevaBlocks
import Kevacoin.Validation.CheckBlock
import Kevacoin.Validation.Contextual
import Kevacoin.Validation.ConnectLoop
import Kevacoin.Validation.RoundTrip
import Kevacoin.Validation.SequenceLocks
import Kevacoin.Keva.Undo
