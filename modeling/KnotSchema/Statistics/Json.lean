import Mathlib.Data.Nat.Digits
import KnotSchema.Python.Dict
import KnotSchema.Statistics.Store

/-! `json.loads` on the answers kresd gives to `collect_lazy_statistics()`: a JSON object whose
keys are plain strings and whose values are non-negative integers. On such a text the decoder
returns what `json.loads` returns, the object as a dict whose later duplicate keys overwrite
earlier ones. Every other text is rejected. `json.loads` rejects those that are no JSON
document; the others, with an escape in a key, a negative or fractional number or a nested
value, are outside what this model reads. The message of the `JSONDecodeError` is not
modelled. The decoder is proved against the writer of such objects, `jsonObject`, on the
writer's output. -/
namespace KnotSchema

/-- JSON's whitespace, which the scanner skips between tokens. -/
def isJsonSpace (c : Char) : Bool := c == ' ' || c == '\t' || c == '\n' || c == '\r'

/-- A character a key holds as it is: no quote, no backslash, no control character. -/
def plainKeyChar (c : Char) : Bool := c != '"' && c != '\\' && 32 ≤ c.toNat

/-- One more decimal digit after the digits read so far. -/
def digitStep (acc : Nat) (c : Char) : Nat := 10 * acc + (c.toNat - '0'.toNat)

/-- The characters of a key up to its closing quote, and what follows it. -/
def readKey : List Char → Option (List Char × List Char)
  | [] => none
  | c :: cs =>
      if c = '"' then some ([], cs)
      else if plainKeyChar c then (readKey cs).map fun r => (c :: r.1, r.2) else none

/-- The longest run of digits, read into the accumulator. -/
def readDigits (acc : Nat) : List Char → Nat × List Char
  | [] => (acc, [])
  | c :: cs => if c.isDigit then readDigits (digitStep acc c) cs else (acc, c :: cs)

/-- A JSON integer that is not negative: `0`, or digits not starting with `0`. A `0` followed by
more digits stops after the `0`, and the object then rejects the next digit. -/
def readNumber : List Char → Option (Nat × List Char)
  | [] => none
  | c :: cs =>
      if c = '0' then some (0, cs) else if c.isDigit then some (readDigits 0 (c :: cs)) else none

/-- One member `"key": value`, from the key's opening quote. -/
def readMember : List Char → Option ((PyVal × PyVal) × List Char)
  | '"' :: cs =>
      match readKey cs with
      | none => none
      | some (key, rest) =>
          match rest.dropWhile isJsonSpace with
          | ':' :: rest =>
              (readNumber (rest.dropWhile isJsonSpace)).map fun r => ((.str ⟨key⟩, .int r.1), r.2)
          | _ => none
  | _ => none

/-- The members of an object up to its closing brace, each followed by `,` and the next or by
the brace; `fuel` bounds their number. -/
def readMembers : Nat → List Char → Option (List (PyVal × PyVal) × List Char)
  | 0, _ => none
  | fuel + 1, cs =>
      match readMember cs with
      | none => none
      | some (m, rest) =>
          match rest.dropWhile isJsonSpace with
          | '\x7d' :: rest => some ([m], rest)
          | ',' :: rest =>
              (readMembers fuel (rest.dropWhile isJsonSpace)).map fun r => (m :: r.1, r.2)
          | _ => none

/-- An object, from its opening brace: `dict(pairs)` of its members. -/
def readObject : List Char → Option (PyVal × List Char)
  | '\x7b' :: cs =>
      match cs.dropWhile isJsonSpace with
      | '\x7d' :: rest => some (.dict [], rest)
      | cs => (readMembers cs.length cs).map fun r => (.dict (dictOfPairs [] r.1), r.2)
  | _ => none

/-- The `JSONDecodeError` of a rejected text, its message not modelled. -/
def jsonRejected : StatsError := .decode "JSONDecodeError"

/-- `json.loads(raw)` on the statistics answers: an object, with only whitespace around it. -/
def statsLoads (raw : String) : Except StatsError PyVal :=
  match readObject (raw.toList.dropWhile isJsonSpace) with
  | some (v, rest) => if rest.all isJsonSpace then .ok v else .error jsonRejected
  | none => .error jsonRejected

/-! ### The writer -/

/-- One member as `json.dumps` writes it, `"key": value`, the value by `str(int)`. -/
def jsonMember (key : String) (v : Nat) : List Char :=
  '"' :: key.toList ++ '"' :: ':' :: ' ' :: Nat.toDigits 10 v

/-- The members of a non-empty object, separated by `, `. -/
def jsonMembers (m : String × Nat) : List (String × Nat) → List Char
  | [] => jsonMember m.1 m.2
  | m' :: ms => jsonMember m.1 m.2 ++ ',' :: ' ' :: jsonMembers m' ms

/-- The JSON text of a report of integer statistics, as `json.dumps` writes it. -/
def jsonObject : List (String × Nat) → String
  | [] => "\x7b\x7d"
  | m :: ms => ⟨'\x7b' :: jsonMembers m ms ++ ['\x7d']⟩

/-- The entry a statistic is read back as. -/
def statEntry (m : String × Nat) : PyVal × PyVal := (.str m.1, .int m.2)

/-! ### Reading back what the writer wrote -/

theorem digitChar_digit {d : Nat} (h : d < 10) :
    (Nat.digitChar d).isDigit = true ∧ (Nat.digitChar d).toNat - '0'.toNat = d ∧
      (Nat.digitChar d = '0' → d = 0) := by
  have hAll : ∀ d < 10, (Nat.digitChar d).isDigit = true ∧
      (Nat.digitChar d).toNat - '0'.toNat = d ∧ (Nat.digitChar d = '0' → d = 0) := by decide
  exact hAll d h

/-- The digits `str(n)` writes, before `ds`: all digits, and the first not `0` unless `n` is. -/
theorem toDigitsCore_shape {f n : Nat} {ds : List Char} (hf : n < f)
    (hds : ∀ c ∈ ds, c.isDigit = true) :
    ∃ c cs, Nat.toDigitsCore 10 f n ds = c :: cs ∧ (c = '0' → n = 0) ∧
      ∀ c' ∈ c :: cs, c'.isDigit = true := by
  induction f generalizing n ds with
  | zero => omega
  | succ f ih =>
      have hd := digitChar_digit (Nat.mod_lt n (by decide : 10 > 0))
      have hds' : ∀ c ∈ Nat.digitChar (n % 10) :: ds, c.isDigit = true :=
        List.forall_mem_cons.mpr ⟨hd.1, hds⟩
      by_cases hn : n / 10 = 0
      · refine ⟨_, ds, by simp [Nat.toDigitsCore, hn], fun h => ?_, hds'⟩
        have := hd.2.2 h
        omega
      · obtain ⟨c, cs, hEq, hZero, hAll⟩ := ih (n := n / 10) (by omega) hds'
        exact ⟨c, cs, by simp [Nat.toDigitsCore, hn, hEq], fun h => absurd (hZero h) hn, hAll⟩

/-- The digits `str(n)` writes, before `ds`, read from `0`: reading `ds` from `n`. -/
theorem foldl_toDigitsCore {f n : Nat} {ds : List Char} (hf : n < f) :
    (Nat.toDigitsCore 10 f n ds).foldl digitStep 0 = ds.foldl digitStep n := by
  induction f generalizing n ds with
  | zero => omega
  | succ f ih =>
      have hd := (digitChar_digit (Nat.mod_lt n (by decide : 10 > 0))).2.1
      by_cases hn : n / 10 = 0
      · simp only [Nat.toDigitsCore, hn, if_true, List.foldl_cons, digitStep, hd]
        congr 1
        omega
      · simp only [Nat.toDigitsCore, hn, if_false]
        rw [ih (by omega), List.foldl_cons, digitStep, hd]
        congr 1
        omega

theorem readDigits_append {acc : Nat} {cs : List Char} (rest : List Char)
    (h : ∀ c ∈ cs, c.isDigit = true) :
    readDigits acc (cs ++ rest) = readDigits (cs.foldl digitStep acc) rest := by
  induction cs generalizing acc with
  | nil => rfl
  | cons c cs ih =>
      rw [List.forall_mem_cons] at h
      simp only [List.cons_append, readDigits, h.1, if_true, List.foldl_cons]
      exact ih h.2

/-- `str(v)` followed by a character that is not a digit reads back as `v`. -/
theorem readNumber_toDigits (v : Nat) {c : Char} (rest : List Char) (hc : c.isDigit = false) :
    readNumber (Nat.toDigits 10 v ++ c :: rest) = some (v, c :: rest) := by
  obtain ⟨d, ds, hEq, hZero, hAll⟩ := toDigitsCore_shape (Nat.lt_succ_self v)
    (List.forall_mem_nil _)
  have hValue : (d :: ds).foldl digitStep 0 = v := by
    rw [← hEq, foldl_toDigitsCore (Nat.lt_succ_self v)]
    rfl
  unfold Nat.toDigits
  rw [hEq]
  by_cases hd : d = '0'
  · obtain rfl := hZero hd
    have hds : ds = [] := (List.cons.inj (show [Nat.digitChar 0] = d :: ds from hEq)).2.symm
    simp [readNumber, hd, hds]
  · rw [List.cons_append, readNumber, if_neg hd, if_pos (hAll d (List.mem_cons_self _ _)),
      ← List.cons_append, readDigits_append _ hAll, hValue, readDigits, hc]
    rfl

theorem isJsonSpace_of_isDigit {c : Char} (h : c.isDigit = true) : isJsonSpace c = false := by
  cases hs : isJsonSpace c
  · rfl
  · simp only [isJsonSpace, Bool.or_eq_true, beq_iff_eq] at hs
    rcases hs with ((rfl | rfl) | rfl) | rfl <;> exact absurd h (by decide)

theorem readKey_append {key : List Char} (rest : List Char)
    (h : ∀ c ∈ key, plainKeyChar c = true) : readKey (key ++ '"' :: rest) = some (key, rest) := by
  induction key with
  | nil => simp [readKey]
  | cons c cs ih =>
      rw [List.forall_mem_cons] at h
      have hq : c ≠ '"' := by rintro rfl; cases h.1
      simp [readKey, hq, h.1, ih h.2]

/-- A key of the writer's: every character plain. -/
def PlainKey (key : String) : Prop := ∀ c ∈ key.toList, plainKeyChar c = true

theorem readMember_jsonMember {key : String} (v : Nat) {c : Char} (rest : List Char)
    (hKey : PlainKey key) (hc : c.isDigit = false) :
    readMember (jsonMember key v ++ c :: rest) = some (statEntry (key, v), c :: rest) := by
  obtain ⟨d, ds, hEq, -, hAll⟩ := toDigitsCore_shape (Nat.lt_succ_self v) (List.forall_mem_nil _)
  have hDrop : (Nat.toDigits 10 v ++ c :: rest).dropWhile isJsonSpace =
      Nat.toDigits 10 v ++ c :: rest := by
    rw [Nat.toDigits, hEq, List.cons_append, List.dropWhile_cons_of_neg]
    simpa using isJsonSpace_of_isDigit (hAll d (List.mem_cons_self _ _))
  simp only [jsonMember, List.cons_append, List.append_assoc, readMember, readKey_append _ hKey]
  simp [isJsonSpace, hDrop, readNumber_toDigits v rest hc, statEntry]

theorem length_lt_jsonMembers (m : String × Nat) (ms : List (String × Nat)) :
    ms.length < (jsonMembers m ms).length := by
  induction ms generalizing m with
  | nil => simp [jsonMembers, jsonMember]
  | cons m' ms ih =>
      have := ih m'
      simp only [jsonMembers, List.length_append, List.length_cons]
      omega

/-- The members the writer wrote, closed by the brace, read back one by one. -/
theorem readMembers_jsonMembers {m : String × Nat} {ms : List (String × Nat)} {fuel : Nat}
    (rest : List Char) (hKeys : ∀ m' ∈ m :: ms, PlainKey m'.1) (hFuel : ms.length < fuel) :
    readMembers fuel (jsonMembers m ms ++ '\x7d' :: rest) =
      some ((m :: ms).map statEntry, rest) := by
  induction ms generalizing m fuel with
  | nil =>
      obtain ⟨fuel, rfl⟩ : ∃ f, fuel = f + 1 := ⟨fuel - 1, by simp at hFuel; omega⟩
      simp [readMembers, jsonMembers, readMember_jsonMember m.2 rest
        (hKeys m (List.mem_cons_self _ _)) (show Char.isDigit '\x7d' = false from rfl), isJsonSpace]
  | cons m' ms ih =>
      obtain ⟨fuel, rfl⟩ : ∃ f, fuel = f + 1 := ⟨fuel - 1, by simp at hFuel; omega⟩
      have hHead := readMember_jsonMember m.2 (' ' :: jsonMembers m' ms ++ '\x7d' :: rest)
        (hKeys m (List.mem_cons_self _ _)) (show Char.isDigit ',' = false from rfl)
      have hRest := ih (m := m') (fun k hk => hKeys k (List.mem_cons_of_mem _ hk))
        (by simpa using hFuel)
      have hStart : (jsonMembers m' ms ++ '\x7d' :: rest).dropWhile isJsonSpace =
          jsonMembers m' ms ++ '\x7d' :: rest := by
        cases ms <;> simp [jsonMembers, jsonMember, isJsonSpace]
      simp only [jsonMembers, List.append_assoc, List.cons_append] at hHead ⊢
      simp [readMembers, hHead, isJsonSpace, List.cons_append, hStart, hRest]

/-- `json.loads` reads the writer's object back as the dict of its statistics. -/
theorem statsLoads_jsonObject {stats : List (String × Nat)} (hKeys : ∀ m ∈ stats, PlainKey m.1) :
    statsLoads (jsonObject stats) = .ok (.dict (dictOfPairs [] (stats.map statEntry))) := by
  cases stats with
  | nil => rfl
  | cons m ms =>
      have hStart : (jsonMembers m ms ++ ['\x7d']).dropWhile isJsonSpace =
          jsonMembers m ms ++ ['\x7d'] := by
        cases ms <;> simp [jsonMembers, jsonMember, isJsonSpace]
      have hFuel : ms.length < (jsonMembers m ms ++ ['\x7d']).length := by
        have := length_lt_jsonMembers m ms
        simp only [List.length_append]
        omega
      have hObject : readObject ('\x7b' :: (jsonMembers m ms ++ ['\x7d'])) =
          some (.dict (dictOfPairs [] ((m :: ms).map statEntry)), []) := by
        rw [readObject, hStart]
        split
        · rename_i rest hEq
          cases ms <;> simp [jsonMembers, jsonMember] at hEq
        · rw [readMembers_jsonMembers [] hKeys hFuel]
          rfl
      simp [statsLoads, jsonObject, isJsonSpace, hObject]

/-- Duplicate keys: the later value overwrites the earlier one, in the earlier one's place. -/
example : statsLoads (jsonObject [("a", 7), ("a", 8)]) = .ok (.dict [(.str "a", .int 8)]) := rfl

/-- A report giving every statistic of `keys` the value `v`, the keys plain and distinct, is
read back as `statsReport`. -/
theorem statsLoads_report {keys : List String} (v : Nat) (hKeys : ∀ k ∈ keys, PlainKey k)
    (hDistinct : keys.Nodup) :
    statsLoads (jsonObject (keys.map fun k => (k, v))) = .ok (statsReport keys (.int v)) := by
  rw [statsLoads_jsonObject (by simpa using hKeys), dictOfPairs_of_keysDistinct]
  · simp [statsReport, statEntry, Function.comp_def]
  · rw [List.nil_append, List.map_map, KeysDistinct, List.pairwise_map]
    exact hDistinct.imp fun hne => beq_eq_false_iff_ne.mpr hne

/-- The keys `_generate_instance_metrics` looks up are plain. -/
theorem instanceKeys_plain : ∀ k ∈ instanceLines.map Line.key, PlainKey k := by
  unfold PlainKey
  decide

theorem instanceKeys_nodup : (instanceLines.map Line.key).Nodup := by decide

end KnotSchema
