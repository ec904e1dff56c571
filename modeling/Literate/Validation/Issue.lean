import Literate.Value.Display

namespace Literate

inductive Place where
  | field (name : Text)
  | index (i : Nat)
deriving DecidableEq

/-- A bound of a range as it is shown. -/
abbrev Bound := Nat

inductive Issue.Cause where
  | missing
  | notText
  | tooShort (least : Nat)
  | tooLong (most : Nat)
  | notInteger
  | unreadableInteger
  | fractionalInteger
  | infiniteInteger
  | oversizedInteger
  | notNumber
  | unreadableNumber
  | notAbove (bound : Bound)
  | below (bound : Bound)
  | above (bound : Bound)
  | otherKind (expected : Text)
  | notRecord (record : Text)
  | notTagged
  | untagged
  | unknownTag (tag : Text) (expected : List Text)
  | notList
  | notSequence
  | refused (reason : Text)
  | frozen
  | noSuchField (name : Text)
deriving DecidableEq

structure Issue where
  place : List Place
  cause : Issue.Cause
deriving DecidableEq

namespace Issue

def Cause.code : Cause → Text
  | missing => "missing"
  | notText => "string_type"
  | tooShort _ => "string_too_short"
  | tooLong _ => "string_too_long"
  | notInteger => "int_type"
  | unreadableInteger => "int_parsing"
  | fractionalInteger => "int_from_float"
  | infiniteInteger => "finite_number"
  | oversizedInteger => "int_parsing_size"
  | notNumber => "float_type"
  | unreadableNumber => "float_parsing"
  | notAbove _ => "greater_than"
  | below _ => "greater_than_equal"
  | above _ => "less_than_equal"
  | otherKind _ => "literal_error"
  | notRecord _ => "model_type"
  | notTagged => "model_attributes_type"
  | untagged => "union_tag_not_found"
  | unknownTag _ _ => "union_tag_invalid"
  | notList => "list_type"
  | notSequence => "tuple_type"
  | refused _ => "value_error"
  | frozen => "frozen_instance"
  | noSuchField _ => "no_such_attribute"

def plural (n : Nat) : Text := if n = 1 then " character" else " characters"

def Cause.message : Cause → Text
  | missing => "Field required"
  | notText => "Input should be a valid string"
  | tooShort n => "String should have at least " ++ Text.ofNat n ++ plural n
  | tooLong n => "String should have at most " ++ Text.ofNat n ++ plural n
  | notInteger => "Input should be a valid integer"
  | unreadableInteger => "Input should be a valid integer, unable to parse string as an integer"
  | fractionalInteger => "Input should be a valid integer, got a number with a fractional part"
  | infiniteInteger => "Input should be a finite number"
  | oversizedInteger => "Unable to parse input string as an integer, exceeded maximum size"
  | notNumber => "Input should be a valid number"
  | unreadableNumber => "Input should be a valid number, unable to parse string as a number"
  | notAbove n => "Input should be greater than " ++ Text.ofNat n
  | below n => "Input should be greater than or equal to " ++ Text.ofNat n
  | above n => "Input should be less than or equal to " ++ Text.ofNat n
  | otherKind k => "Input should be " ++ Text.quote k
  | notRecord r => "Input should be a valid dictionary or instance of " ++ r
  | notTagged => "Input should be a valid dictionary or object to extract fields from"
  | untagged => "Unable to extract tag using discriminator 'kind'"
  | unknownTag tag expected =>
    "Input tag '" ++ tag ++ "' found using 'kind' does not match any of the expected tags: " ++
      Text.join ", " (expected.map Text.quote)
  | notList => "Input should be a valid list"
  | notSequence => "Input should be a valid tuple"
  | refused reason => "Value error, " ++ reason
  | frozen => "Instance is frozen"
  | noSuchField name => "Object has no attribute '" ++ name ++ "'"

def within (p : Place) (i : Issue) : Issue := { i with place := p :: i.place }

end Issue

end Literate
