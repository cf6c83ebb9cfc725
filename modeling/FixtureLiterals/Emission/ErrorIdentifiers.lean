import FixtureLiterals.Emission.Settings
import FixtureLiterals.ErrorCode

/-!
# Error identifiers of the targets

The runtime of each target has identifiers of its own for the reasons to refuse a
message. Every error code has one in both, and some codes share theirs.
-/

namespace FixtureLiterals

/-- The name of a code in the Go runtime. -/
def goErrorName : ErrorCode → String
  | .countExceedsLimit => "ErrVectorTooLong"
  | .envelopeBytesExceedMessageLength => "ErrPayloadTooSmall"
  | .envelopeHandlesExceedMessageLength => "ErrTooManyHandles"
  | .exceededMaxOutOfLineDepth => "ErrExceededMaxOutOfLineDepth"
  | .incorrectHandleType => "ErrIncorrectHandleType"
  | .invalidBoolean => "ErrInvalidBoolValue"
  | .invalidEmptyStruct => "ErrInvalidEmptyStruct"
  | .invalidInlineBitInEnvelope => "ErrInvalidInlineBitValueInEnvelope"
  | .invalidNumBytesInEnvelope => "ErrInvalidNumBytesInEnvelope"
  | .invalidNumHandlesInEnvelope => "ErrInvalidNumHandlesInEnvelope"
  | .invalidPaddingByte => "ErrNonZeroPadding"
  | .invalidPresenceIndicator => "ErrBadRefEncoding"
  | .missingRequiredHandleRights => "ErrMissingRequiredHandleRights"
  | .nonEmptyStringWithNullBody => "ErrUnexpectedNullRef"
  | .nonEmptyVectorWithNullBody => "ErrUnexpectedNullRef"
  | .nonNullableTypeWithNullValue => "ErrUnexpectedNullRef"
  | .nonResourceUnknownHandles => "ErrValueTypeHandles"
  | .strictBitsUnknownBit => "ErrInvalidBitsValue"
  | .strictEnumUnknownValue => "ErrInvalidEnumValue"
  | .strictUnionUnknownField => "ErrInvalidXUnionTag"
  | .stringNotUtf8 => "ErrStringNotUTF8"
  | .stringTooLong => "ErrStringTooLong"
  | .tooFewBytes => "ErrPayloadTooSmall"
  | .tooFewHandles => "ErrNotEnoughHandles"
  | .tooManyBytesInMessage => "ErrTooManyBytesInMessage"
  | .tooManyHandlesInMessage => "ErrTooManyHandlesInMessage"
  | .unexpectedOrdinal => "ErrUnexpectedOrdinal"
  | .unionFieldNotSet => "ErrInvalidXUnionTag"

/-- The variant of a code in the Rust runtime. -/
def rustErrorVariant : ErrorCode → String
  | .countExceedsLimit => "VectorTooLong"
  | .envelopeBytesExceedMessageLength => "OutOfRange"
  | .envelopeHandlesExceedMessageLength => "OutOfHandles"
  | .exceededMaxOutOfLineDepth => "MaxRecursionDepth"
  | .incorrectHandleType => "IncorrectHandleSubtype"
  | .invalidBoolean => "InvalidBoolean"
  | .invalidEmptyStruct => "Invalid"
  | .invalidInlineBitInEnvelope => "InvalidInlineBitInEnvelope"
  | .invalidNumBytesInEnvelope => "InvalidNumBytesInEnvelope"
  | .invalidNumHandlesInEnvelope => "InvalidNumHandlesInEnvelope"
  | .invalidPaddingByte => "NonZeroPadding"
  | .invalidPresenceIndicator => "InvalidPresenceIndicator"
  | .missingRequiredHandleRights => "MissingExpectedHandleRights"
  | .nonEmptyStringWithNullBody => "UnexpectedNullRef"
  | .nonEmptyVectorWithNullBody => "UnexpectedNullRef"
  | .nonNullableTypeWithNullValue => "NotNullable"
  | .nonResourceUnknownHandles => "CannotStoreUnknownHandles"
  | .strictBitsUnknownBit => "InvalidBitsValue"
  | .strictEnumUnknownValue => "InvalidEnumValue"
  | .strictUnionUnknownField => "UnknownUnionTag"
  | .stringNotUtf8 => "Utf8Error"
  | .stringTooLong => "StringTooLong"
  | .tooFewBytes => "OutOfRange"
  | .tooFewHandles => "OutOfHandles"
  | .tooManyBytesInMessage => "ExtraBytes"
  | .tooManyHandlesInMessage => "ExtraHandles"
  | .unexpectedOrdinal => "UnexpectedOrdinal"
  | .unionFieldNotSet => "UnknownUnionTag"

/-- The identifier of a code in Go. -/
def GoWriter.errorIdentifier (writer : GoWriter) (code : ErrorCode) : String :=
  writer.runtimePackage ++ "." ++ goErrorName code

/-- The identifier of a code in Rust. -/
def RustWriter.errorIdentifier (writer : RustWriter) (code : ErrorCode) : String :=
  writer.runtimeCrate ++ "::Error::" ++ rustErrorVariant code

end FixtureLiterals
