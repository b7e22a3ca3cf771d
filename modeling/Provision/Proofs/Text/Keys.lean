import Provision.Proofs.Layout.Typed
/-!
# The texts of keys

A key can be any scalar.  What it is written as shows when it is neither a text nor an integer: it then holds a mark
(`Value.exists_mark`), while an integer is written with digits and a sign (`Value.digits_of_int`).
-/
namespace Provision

/-- Characters of which the text of every key that is neither a text nor an integer holds one. -/
def Value.marks : List Char := ['.', '+', '-', 'n', 'T', 'F', '\'', '"', '(']

open Value (marks)

theorem Double.exists_mark (x : Double) : ∃ c ∈ x.text.toList, c ∈ marks := by
  have hlayout (digits : List Char) (lead : Int) : ∃ c ∈ (layout digits lead).toList, c ∈ marks := by
    unfold layout
    dsimp only
    split
    · exact ⟨'.', by simp, by decide⟩
    split
    · split <;> exact ⟨'.', by simp, by decide⟩
    · by_cases hlead : lead < 0
      · exact ⟨'-', by simp [hlead], by decide⟩
      · exact ⟨'+', by simp [hlead], by decide⟩
  unfold text
  dsimp only
  split
  · exact ⟨'n', by decide, by decide⟩
  split
  · exact ⟨'n', by simp, by decide⟩
  split
  · exact ⟨'.', by simp, by decide⟩
  · obtain ⟨c, hc, hmark⟩ := hlayout _ _
    exact ⟨c, by simp only [String.toList_append, List.mem_append]; exact .inr hc, hmark⟩

theorem Date.exists_mark (d : Date) : ∃ c ∈ d.text.toList, c ∈ marks := ⟨'-', by simp [text], by decide⟩

namespace Value

theorem isDigit_of_mem_repr {n : Nat} {c : Char} (hc : c ∈ (Nat.repr n).toList) : c.isDigit = true := by
  rw [Nat.toList_repr] at hc
  exact Nat.isDigit_of_mem_toDigits (by decide) (by decide) hc

theorem digits_of_int (n : Int) : ∀ c ∈ (toText (.int n)).toList, c.isDigit = true ∨ c = '-' := by
  cases n with
  | ofNat m => exact fun c hc => .inl (isDigit_of_mem_repr hc)
  | negSucc m =>
    intro c hc
    have htext : toText (.int (.negSucc m)) = "-" ++ Nat.repr (m + 1) := by
      simp [toText, literal]; rfl
    rw [htext, String.toList_append, List.mem_append] at hc
    rcases hc with hc | hc
    · exact .inr (by simpa using hc)
    · exact .inl (isDigit_of_mem_repr hc)

/-- A key that is neither a text nor an integer is written with a mark. -/
theorem exists_mark {v : Value} (hkey : v.isKey = true) (htext : v.isText = false) (hint : v.isInt = false) :
    ∃ c ∈ v.toText.toList, c ∈ marks := by
  cases v
  case null => exact ⟨'n', by decide, by decide⟩
  case bool b => cases b <;> [exact ⟨'F', by decide, by decide⟩; exact ⟨'T', by decide, by decide⟩]
  case float x => exact x.exists_mark
  case date d => exact d.exists_mark
  case timestamp t =>
    obtain ⟨c, hc, hmark⟩ := t.date.exists_mark
    refine ⟨c, ?_, hmark⟩
    rw [toText, Timestamp.text]
    simp only [String.toList_append, List.mem_append]
    simp [hc]
  case bytes bs =>
    have hquote (cs : List Char) : literalQuote cs ∈ marks := by
      unfold literalQuote
      split <;> decide
    refine ⟨_, ?_, hquote (bs.map (fun b => Char.ofNat b.toNat))⟩
    show _ ∈ (bytesLiteral bs).toList
    rw [bytesLiteral, String.toList_ofList]
    exact List.mem_cons_of_mem _ List.mem_cons_self
  case pair k v => exact ⟨'(', by simp [toText, literal], by decide⟩
  case text | int => contradiction
  all_goals cases hkey

end Value

end Provision
