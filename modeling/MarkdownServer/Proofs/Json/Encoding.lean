import MarkdownServer.Json.Data
/- Data that comes from a value has texts for all its keys, so that its encoding never fails. -/
set_option autoImplicit false

namespace MarkdownServer.Json.Data

mutual
theorem encode_of_value (v : Value) : (ofValue v).encode = .ok v.sorted := by
  cases v with
  | null | boolean b | number n | text s => rfl
  | array items => rw [ofValue, encode, encode_of_items items, Value.sorted]; rfl
  | object members => rw [ofValue, encode, encode_of_members members, Value.sorted]; rfl

theorem encode_of_items (items : List Value) :
    encodeItems (ofItems items) = .ok (Value.sortedItems items) := by
  cases items with
  | nil => rfl
  | cons v rest =>
      rw [ofItems, encodeItems, encode_of_value v, encode_of_items rest]
      rfl

theorem encode_of_members (members : List (String × Value)) :
    encodeEntries (ofMembers members) = .ok (Value.sortedMembers members) := by
  match members with
  | [] => rfl
  | (name, v) :: rest =>
      rw [ofMembers, encodeEntries, encode_of_value v, encode_of_members rest]
      rfl
end

example : (mapping [(.null, .null)]).encode = .error .keyNotText := rfl

end MarkdownServer.Json.Data
