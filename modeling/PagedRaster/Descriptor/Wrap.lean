/-
  This file defines how a texel coordinate is brought into
  the texture: the four wrap modes of one axis.

  Key definitions include:
    * `WrapMode`
    * `WrapMode.apply`
-/

namespace PagedRaster

/-
  The wrap mode of one texture axis.  `wrap` expects a size
  that is a power of two; the region modes use the two
  region bounds instead of the size.
-/
inductive WrapMode where
  | wrap
  | clamp
  | regionClamp
  | regionRepeat
  deriving DecidableEq, Repr, Inhabited

namespace WrapMode

/- Every wrap mode. -/
def all : List WrapMode :=
  [.wrap, .clamp, .regionClamp, .regionRepeat]

/- The written name of a wrap mode. -/
def name : WrapMode → String
  | .wrap => "Repeat"
  | .clamp => "Clamp"
  | .regionClamp => "RegionClamp"
  | .regionRepeat => "RegionRepeat"

/-
  The coordinate that is sampled.  Under `regionRepeat` the
  lower bound is a mask of kept bits and the upper bound a
  set of bits that are always on.
-/
def apply
    (mode : WrapMode)
    (coord size low high : Int32) : Int32 :=
  match mode with
  | .wrap => coord &&& (size - 1)
  | .clamp => min (max coord 0) (size - 1)
  | .regionClamp => min (max coord low) high
  | .regionRepeat => (coord &&& low) ||| high

end WrapMode

end PagedRaster
