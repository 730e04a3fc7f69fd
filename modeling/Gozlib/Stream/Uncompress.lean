import Gozlib.Stream.Env

/-
  `uncompress_buffer_any`, `is_inflate_result_fatal`, `uncompress_to_outstream_step`,
  `uncompress_to_outstream` and `uncompress_stream_any` of `gozlib.c`.

  As in the compressing direction, the `while` loops take `fuel`.
-/

namespace Gozlib.Stream

open Gozlib.Pool

section Code

variable (cfg : Config) (globalMultipool : Ptr) (env : Env)

/-- `uncompress_buffer_any`: one `inflate (&zs, Z_FINISH)` into the caller's buffer. On a
    failure other than `Z_DATA_ERROR` it returns `avail_in`, the input left unread. -/
def uncompressBufferAny (input : Ptr) (inputLen : UInt32) (output : Ptr) (outputLen : UInt32) :
    SM UInt64 := do
  let initRes ← zInit env uncompressAnyWindowBits
  if initRes ≠ zOk then
    setErrorCode initRes
    return 0
  setIn input inputLen.toNat
  setOut output outputLen.toNat
  let infCode ← zCall env zFinish
  let mut outLen ← readW (·.zs.totalOut)
  if infCode ≠ zStreamEnd then
    setErrorCode infCode
    if infCode = zOk then setErrorCode zMemError
    if infCode ≠ zDataError then outLen := UInt64.ofNat (← readW (·.zs.availIn))
  zEnd
  return outLen

/-- `is_inflate_result_fatal`. -/
def isInflateResultFatal (infCode : Int) : Bool :=
  infCode = zDataError || infCode = zStreamError || infCode = zMemError || infCode = zNeedDict

/-- `uncompress_to_outstream_step`: one `inflate` into the work buffer, whose output goes to
    `output_handler`. -/
def uncompressToOutstreamStep (outputBuf : Ptr) (outputLen : Nat) : SM Int := do
  setOut outputBuf outputLen
  let infCode ← zCall env zNoFlush
  if isInflateResultFatal infCode then
    return if infCode = zNeedDict then zDataError else infCode
  let outstreamLen := outputLen - (← readW (·.zs.availOut))
  if outstreamLen > 0 then
    if (← outputHandler env outputBuf outstreamLen) = 0 then
      return gozlibStreamOutputWriteError
  if (← readW (·.zs.availOut)) > 0 then return zOk
  return gozlibStreamOutputHasMoreData

/-- `uncompress_to_outstream`: steps while the work buffer comes back full. -/
def uncompressToOutstream (outputBuf : Ptr) (outputLen : Nat) : Nat → SM Int
  | 0 => stopWith .outOfFuel
  | fuel + 1 => do
    let outputCode ← uncompressToOutstreamStep env outputBuf outputLen
    if outputCode = gozlibStreamOutputHasMoreData then
      uncompressToOutstream outputBuf outputLen fuel
    else return outputCode

/-- The `while (zs.avail_in > 0)` loop of `uncompress_stream_any`. -/
def uncompressLoop (inputBuf outputBuf : Ptr) (inputCap outputCap fuel : Nat) : Nat → SM Unit
  | 0 => stopWith .outOfFuel
  | k + 1 => do
    if (← readW (·.zs.availIn)) = 0 then return ()
    let uncompCode ← uncompressToOutstream env outputBuf outputCap fuel
    if uncompCode < zOk then
      setErrorCode uncompCode
      return ()
    if uncompCode = zStreamEnd then return ()
    let n ← inputHandler env inputBuf inputCap
    setIn inputBuf n
    uncompressLoop inputBuf outputBuf inputCap outputCap fuel k

/-- `uncompress_stream_any`. -/
def uncompressStreamAny (workInputBufferCap workOutputBufferCap : UInt32) (fuel : Nat) :
    SM UInt64 := do
  let initCode ← zInit env uncompressAnyWindowBits
  if initCode ≠ zOk then
    setErrorCode initCode
    return 0
  let inputBuf ← poolAllocW cfg globalMultipool workInputBufferCap.toNat
  let outputBuf ← poolAllocW cfg globalMultipool workOutputBufferCap.toNat
  let n ← inputHandler env inputBuf workInputBufferCap.toNat
  setIn inputBuf n
  uncompressLoop env inputBuf outputBuf workInputBufferCap.toNat workOutputBufferCap.toNat
    fuel fuel
  let uncompressedLen ← readW (·.zs.totalOut)
  zEnd
  poolFreeW cfg inputBuf
  poolFreeW cfg outputBuf
  return uncompressedLen

end Code

end Gozlib.Stream
