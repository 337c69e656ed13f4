import ClockifyAssistant.Lib.JsonText

/-!
Lengths of text in UTF-16 units and in UTF-8 bytes, and what cutting a text leaves of it: a
prefix within the budget, and the text itself where it fits.
-/
namespace ClockifyAssistant.Lib

/-- `text.length` -/
def utf16Length (text : String) : Nat := (text.toList.map utf16Units).sum

@[simp] theorem utf16Length_empty : utf16Length "" = 0 := rfl

section Prefixes

variable {cost : Char → Nat} {budget : Nat} {cs : List Char}

theorem prefixFor_prefix (cost : Char → Nat) (budget : Nat) (cs : List Char) :
    prefixFor cost budget cs <+: cs := by
  induction cs generalizing budget with
  | nil => exact List.nil_prefix
  | cons c rest ih =>
    unfold prefixFor
    split
    · exact List.cons_prefix_cons.mpr ⟨rfl, ih _⟩
    · exact List.nil_prefix

theorem prefixFor_cost (cost : Char → Nat) (budget : Nat) (cs : List Char) :
    ((prefixFor cost budget cs).map cost).sum ≤ budget := by
  induction cs generalizing budget with
  | nil => exact Nat.zero_le _
  | cons c rest ih =>
    unfold prefixFor
    split
    · have hrest := ih (budget - cost c)
      rw [List.map_cons, List.sum_cons]
      omega
    · exact Nat.zero_le _

theorem prefixFor_of_le (h : (cs.map cost).sum ≤ budget) : prefixFor cost budget cs = cs := by
  induction cs generalizing budget with
  | nil => rfl
  | cons c rest ih =>
    rw [List.map_cons, List.sum_cons] at h
    unfold prefixFor
    rw [if_pos (by omega), ih (by omega)]

end Prefixes

theorem utf16Length_append (s t : String) : utf16Length
    (s ++ t) = utf16Length s + utf16Length t := by
  simp [utf16Length]

theorem utf8ByteSize_ofList (cs : List Char) :
    (String.ofList cs).utf8ByteSize = (cs.map Char.utf8Size).sum := by
  induction cs with
  | nil => rfl
  | cons c rest ih =>
    have hsplit : String.ofList (c :: rest) = String.singleton c ++ String.ofList rest := by
      rw [String.singleton_eq_ofList, ← String.ofList_append, List.singleton_append]
    rw [hsplit, String.utf8ByteSize_append, String.utf8ByteSize_singleton, ih, List.map_cons,
      List.sum_cons]

theorem utf8ByteSize_eq_sum (text : String) :
    text.utf8ByteSize = (text.toList.map Char.utf8Size).sum := by
  rw [← utf8ByteSize_ofList, String.ofList_toList]

/-- A character takes at least as many bytes as units. -/
theorem utf16Units_le_utf8Size (c : Char) : utf16Units c ≤ c.utf8Size := by
  unfold utf16Units
  split
  · exact c.utf8Size_pos
  · rename_i hlarge
    have hval : 0x10000 ≤ c.val.toNat := Nat.not_lt.mp hlarge
    have hone : c.utf8Size ≠ 1 := by
      intro h
      have hle : c.val.toNat ≤ 127 := UInt32.le_iff_toNat_le.mp (Char.utf8Size_eq_one_iff.mp h)
      omega
    have hpos := c.utf8Size_pos
    omega

theorem utf16Length_le_utf8ByteSize (text : String) : utf16Length text ≤ text.utf8ByteSize := by
  rw [utf8ByteSize_eq_sum, utf16Length]
  induction text.toList with
  | nil => exact Nat.le_refl 0
  | cons c rest ih =>
    rw [List.map_cons, List.sum_cons, List.map_cons, List.sum_cons]
    exact Nat.add_le_add (utf16Units_le_utf8Size c) ih

theorem utf16Length_sliceUnits (units : Nat) (text : String) :
    utf16Length (sliceUnits units text) ≤ units := by
  rw [utf16Length, sliceUnits, String.toList_ofList]
  exact prefixFor_cost _ _ _

theorem sliceUnits_of_le {units : Nat} {text : String} (h : utf16Length text ≤ units) :
    sliceUnits units text = text := by
  rw [sliceUnits, prefixFor_of_le h, String.ofList_toList]

/-- A text is cut exactly where it does not fit. -/
theorem sliceUnits_eq_self {units : Nat} {text : String} :
    sliceUnits units text = text ↔ utf16Length text ≤ units :=
  ⟨fun h => h ▸ utf16Length_sliceUnits units text, sliceUnits_of_le⟩

theorem utf8ByteSize_sliceBytes (bytes : Nat) (text : String) :
    (sliceBytes bytes text).utf8ByteSize ≤ bytes := by
  rw [sliceBytes, utf8ByteSize_ofList]
  exact prefixFor_cost _ _ _

theorem sliceBytes_prefix (bytes : Nat) (text : String) :
    ∃ rest, text = sliceBytes bytes text ++ rest := by
  obtain ⟨rest, hrest⟩ := prefixFor_prefix Char.utf8Size bytes text.toList
  refine ⟨String.ofList rest, ?_⟩
  rw [sliceBytes, ← String.ofList_append, hrest, String.ofList_toList]

end ClockifyAssistant.Lib
