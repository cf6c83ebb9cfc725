import FixtureLiterals.Text.Vocabulary

/-!
# Wire-format error codes

A fixture may expect that a message is refused. The reason is one of a closed list
of codes that belongs to no target; each target has an identifier of its own for
every one of them.
-/

namespace FixtureLiterals

/-- A reason to refuse a message. -/
inductive ErrorCode where
  | countExceedsLimit
  | envelopeBytesExceedMessageLength
  | envelopeHandlesExceedMessageLength
  | exceededMaxOutOfLineDepth
  | incorrectHandleType
  | invalidBoolean
  | invalidEmptyStruct
  | invalidInlineBitInEnvelope
  | invalidNumBytesInEnvelope
  | invalidNumHandlesInEnvelope
  | invalidPaddingByte
  | invalidPresenceIndicator
  | missingRequiredHandleRights
  | nonEmptyStringWithNullBody
  | nonEmptyVectorWithNullBody
  | nonNullableTypeWithNullValue
  | nonResourceUnknownHandles
  | strictBitsUnknownBit
  | strictEnumUnknownValue
  | strictUnionUnknownField
  | stringNotUtf8
  | stringTooLong
  | tooFewBytes
  | tooFewHandles
  | tooManyBytesInMessage
  | tooManyHandlesInMessage
  | unexpectedOrdinal
  | unionFieldNotSet
deriving DecidableEq, Repr

namespace ErrorCode

/-- The suite's word for an error code. -/
def word : ErrorCode → String
  | .countExceedsLimit => "count_exceeds_limit"
  | .envelopeBytesExceedMessageLength => "envelope_bytes_exceed_message_length"
  | .envelopeHandlesExceedMessageLength => "envelope_handles_exceed_message_length"
  | .exceededMaxOutOfLineDepth => "exceeded_max_out_of_line_depth"
  | .incorrectHandleType => "incorrect_handle_type"
  | .invalidBoolean => "invalid_boolean"
  | .invalidEmptyStruct => "invalid_empty_struct"
  | .invalidInlineBitInEnvelope => "invalid_inline_bit_in_envelope"
  | .invalidNumBytesInEnvelope => "invalid_num_bytes_in_envelope"
  | .invalidNumHandlesInEnvelope => "invalid_num_handles_in_envelope"
  | .invalidPaddingByte => "invalid_padding_byte"
  | .invalidPresenceIndicator => "invalid_presence_indicator"
  | .missingRequiredHandleRights => "missing_required_handle_rights"
  | .nonEmptyStringWithNullBody => "non_empty_string_with_null_body"
  | .nonEmptyVectorWithNullBody => "non_empty_vector_with_null_body"
  | .nonNullableTypeWithNullValue => "non_nullable_type_with_null_value"
  | .nonResourceUnknownHandles => "non_resource_unknown_handles"
  | .strictBitsUnknownBit => "strict_bits_unknown_bit"
  | .strictEnumUnknownValue => "strict_enum_unknown_value"
  | .strictUnionUnknownField => "strict_union_unknown_field"
  | .stringNotUtf8 => "string_not_utf8"
  | .stringTooLong => "string_too_long"
  | .tooFewBytes => "too_few_bytes"
  | .tooFewHandles => "too_few_handles"
  | .tooManyBytesInMessage => "too_many_bytes_in_message"
  | .tooManyHandlesInMessage => "too_many_handles_in_message"
  | .unexpectedOrdinal => "unexpected_ordinal"
  | .unionFieldNotSet => "union_field_not_set"

instance : Text.Vocabulary ErrorCode where
  all := [.countExceedsLimit, .envelopeBytesExceedMessageLength,
    .envelopeHandlesExceedMessageLength, .exceededMaxOutOfLineDepth, .incorrectHandleType,
    .invalidBoolean, .invalidEmptyStruct, .invalidInlineBitInEnvelope,
    .invalidNumBytesInEnvelope, .invalidNumHandlesInEnvelope, .invalidPaddingByte,
    .invalidPresenceIndicator, .missingRequiredHandleRights, .nonEmptyStringWithNullBody,
    .nonEmptyVectorWithNullBody, .nonNullableTypeWithNullValue, .nonResourceUnknownHandles,
    .strictBitsUnknownBit, .strictEnumUnknownValue, .strictUnionUnknownField,
    .stringNotUtf8, .stringTooLong, .tooFewBytes, .tooFewHandles, .tooManyBytesInMessage,
    .tooManyHandlesInMessage, .unexpectedOrdinal, .unionFieldNotSet]
  word := word
  mem_all := by intro member; cases member <;> decide
  distinct := by decide

end ErrorCode

end FixtureLiterals
