/-
# Elementary functions in single precision

Sine, cosine and the power of two are those of the platform's mathematical
library, reached through the encodings of the numbers. Nothing is assumed about
their values.
-/

import Animation.Binary.Arithmetic

namespace Animation.Single

/-- The number with the same encoding in the platform's own representation. -/
private def toPlatform (x : Single) : Float32 :=
  Float32.ofBits (UInt32.ofNat x.toBits)

private def ofPlatform (x : Float32) : Single :=
  Binary.ofBits Format.binary32 x.toBits.toNat

def sin (x : Single) : Single := ofPlatform (toPlatform x).sin

def cos (x : Single) : Single := ofPlatform (toPlatform x).cos

/-- Two to the power `x`. -/
def exp2 (x : Single) : Single := ofPlatform (toPlatform x).exp2

/-- The single precision number nearest to the circle constant. -/
def pi : Single := Binary.ofBits Format.binary32 0x40490fdb

end Animation.Single
