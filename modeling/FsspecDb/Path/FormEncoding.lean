import FsspecDb.Path.Query
import FsspecDb.Path.Urllib

/-!
# Form encoding

`split_query` reads back what `urlencode` writes, and reads every text as `parse_qsl` does.
The first goes over the bytes of a text, the second over its runs of ASCII characters.
-/

namespace FsspecDb.Urllib
open Text Utf8

/-! ### Plus signs -/

def plusToSpace (b : Byte) : Byte := if b = 0x2B then 0x20 else b

theorem percentDecodeBytes_plusToSpace (bytes : List Byte) :
    percentDecodeBytes (bytes.map plusToSpace) = percentDecodeBytes bytes := by
  have hdigit (b : Byte) : hexDigit (plusToSpace b) = hexDigit b := by
    unfold plusToSpace
    split
    · next h =>
      rw [h]
      decide
    · rfl
  fun_induction percentDecodeBytes bytes with
  | case1 => rfl
  | case2 rest ih =>
    rw [List.map_cons, ← ih]
    exact percentDecodeBytes_plain 0x20 _ (by decide) (by decide)
  | case3 b₁ b₂ rest high low hlow hhigh ih =>
    rw [List.map_cons, List.map_cons, List.map_cons, ← ih]
    have hpercent : plusToSpace 0x25 = 0x25 := by decide
    rw [hpercent, percentDecodeBytes, hdigit, hdigit, hhigh, hlow]
  | case4 b₁ b₂ rest hnot ih =>
    have hpercent : plusToSpace 0x25 = 0x25 := by decide
    rw [List.map_cons, hpercent, percentDecodeBytes_percent, ih]
    intro c₁ c₂ more heq
    obtain ⟨rfl, hrest⟩ := List.cons.inj heq
    obtain ⟨rfl, _⟩ := List.cons.inj hrest
    rw [hdigit, hdigit]
    exact hexDigit_none_or _ _ hnot
  | case5 b rest hplus hshort ih =>
    have hsame : plusToSpace b = b := if_neg fun h => hplus h
    rw [List.map_cons, hsame]
    by_cases hpercent : b = 0x25
    · subst hpercent
      rw [percentDecodeBytes_percent, ih]
      intro c₁ c₂ more heq
      rcases rest with _ | ⟨d, _ | ⟨d₂, more⟩⟩
      · cases heq
      · cases heq
      · exact absurd rfl (hshort d d₂ more rfl)
    · rw [percentDecodeBytes_plain b _ hplus hpercent, ih]

theorem encode_replace_plus (s : Str) :
    encode (replace s '+' [' ']) = (encode s).map plusToSpace := by
  induction s with
  | nil => rfl
  | cons c s ih =>
    have hreplace : replace (c :: s) '+' [' '] =
        (if c = '+' then [' '] else [c]) ++ replace s '+' [' '] := rfl
    have happend (s t : Str) : encode (s ++ t) = encode s ++ encode t := List.flatMap_append
    rw [hreplace, happend, ih, encode_cons, List.map_append]
    congr 1
    split
    · next h =>
      rw [h]
      decide
    · next h =>
      rw [encode_cons]
      simp only [encode, List.flatMap_nil, List.append_nil]
      symm
      rw [List.map_congr_left (g := id), List.map_id]
      intro b hb
      refine if_neg fun hplus => ?_
      by_cases hpercent : c = '%'
      · subst hpercent
        subst hplus
        exact absurd hb (by decide)
      · exact (encodeChar_not_special c h hpercent b hb).1 hplus

/-! ### Runs of ASCII characters -/

theorem isAscii_boundary (c : Char) (h : isAscii c = false) : Boundary c := by
  have hc : ¬ c.toNat < 0x80 := by simpa [isAscii] using h
  refine ⟨if_neg hc, ?_, ?_⟩
  · intro heq
    subst heq
    exact hc (by decide)
  · intro heq
    subst heq
    exact hc (by decide)

/- A run without ASCII characters is kept. -/
theorem percentDecode_run (run rest : Str) (h : ∀ c ∈ run, isAscii c = false) :
    percentDecode (run ++ rest) = run ++ percentDecode rest := by
  induction run with
  | nil => rfl
  | cons c run ih =>
    have hdecode := percentDecode_append [] c (run ++ rest)
      (isAscii_boundary c (h c List.mem_cons_self))
    rw [List.nil_append] at hdecode
    rw [List.cons_append, hdecode, ih fun d hd => h d (List.mem_cons_of_mem c hd)]
    rfl

def decodeRun (run : Str) : Str := if run.all isAscii then percentDecode run else run

/-- A text is decoded run by run, where every run that follows an ASCII one is none. -/
theorem percentDecode_runs (runs : List Str)
    (hkind : ∀ run ∈ runs, run.all isAscii = true ∨ ∀ c ∈ run, isAscii c = false)
    (hchange : runs.IsChain fun run next =>
      run.all isAscii = true → ∃ c more, next = c :: more ∧ isAscii c = false) :
    percentDecode runs.flatten = runs.flatMap decodeRun := by
  induction runs with
  | nil => rfl
  | cons run runs ih =>
    have hrest := ih (fun other hother => hkind other (List.mem_cons_of_mem run hother))
      hchange.tail
    rw [List.flatten_cons, List.flatMap_cons, ← hrest]
    by_cases hascii : run.all isAscii = true
    · have hrun : decodeRun run = percentDecode run := if_pos hascii
      rw [hrun]
      cases runs with
      | nil =>
        have hempty : percentDecode [] = [] := rfl
        rw [List.flatten_nil, List.append_nil, hempty, List.append_nil]
      | cons next runs =>
        obtain ⟨c, more, hnext, hc⟩ := (List.isChain_cons_cons.mp hchange).1 hascii
        have hboundary := isAscii_boundary c hc
        have hdecode := percentDecode_append [] c (more ++ runs.flatten) hboundary
        rw [List.nil_append] at hdecode
        rw [hnext, List.flatten_cons, List.cons_append,
          percentDecode_append run c _ hboundary, hdecode]
        rfl
    · have hrun : decodeRun run = run := if_neg hascii
      rw [hrun]
      apply percentDecode_run
      rcases hkind run List.mem_cons_self with h | h
      · exact absurd h hascii
      · exact h

theorem chain_isAscii (c : Char) (run : Str)
    (h : (c :: run).IsChain fun a b => (isAscii a == isAscii b) = true) :
    ∀ d ∈ c :: run, isAscii d = isAscii c := by
  induction run generalizing c with
  | nil =>
    intro d hd
    rw [List.mem_singleton.mp hd]
  | cons next run ih =>
    obtain ⟨hsame, hrest⟩ := List.isChain_cons_cons.mp h
    intro d hd
    rcases List.mem_cons.mp hd with heq | hd
    · rw [heq]
    · rw [ih next hrest d hd]
      exact (beq_iff_eq.mp hsame).symm

/- The runs that the regular expression finds. -/
theorem percentDecode_splitBy (s : Str) :
    percentDecode s =
      (s.splitBy fun a b => isAscii a == isAscii b).flatMap decodeRun := by
  have hkind (run : Str) (hrun : run ∈ s.splitBy fun a b => isAscii a == isAscii b) :
      run.all isAscii = true ∨ ∀ c ∈ run, isAscii c = false := by
    have hchain := List.isChain_of_mem_splitBy hrun
    cases run with
    | nil => exact .inl rfl
    | cons c run =>
      have hsame := chain_isAscii c run hchain
      cases hc : isAscii c with
      | true => exact .inl (List.all_eq_true.mpr fun d hd => (hsame d hd).trans hc)
      | false => exact .inr fun d hd => (hsame d hd).trans hc
  have hparts := percentDecode_runs (s.splitBy fun a b => isAscii a == isAscii b) hkind ?_
  · rw [List.flatten_splitBy] at hparts
    exact hparts
  · refine (List.isChain_getLast_head_splitBy _ s).imp fun run next hdiffer hascii => ?_
    obtain ⟨hrun, hnext, hkinds⟩ := hdiffer
    cases next with
    | nil => exact absurd rfl hnext
    | cons c more =>
      refine ⟨c, more, rfl, ?_⟩
      have hlast : isAscii (run.getLast hrun) = true :=
        List.all_eq_true.mp hascii _ (List.getLast_mem hrun)
      rw [hlast] at hkinds
      cases hc : isAscii c with
      | false => rfl
      | true => simp [hc] at hkinds

/-! ### `parse_qsl` -/

/- An ASCII byte of an encoded text is a character of the text. -/
theorem mem_of_mem_encode (s : Str) (b : Byte) (hb : b.toNat < 0x80) (h : b ∈ encode s) :
    Char.ofNat b.toNat ∈ s := by
  obtain ⟨c, hc, hmem⟩ := List.mem_flatMap.mp h
  by_cases hascii : c.toNat < 0x80
  · rw [encodeChar_ascii c hascii, List.mem_singleton] at hmem
    have hvalue : b.toNat = c.toNat := by rw [hmem, toNat_ofNat _ (by omega)]
    rw [hvalue, Char.ofNat_toNat]
    exact hc
  · have habove := encodeChar_above c (by omega) b hmem
    omega

theorem hasEscape_of_not_mem (s : Str) (h : '%' ∉ s) : hasEscape s = false := by
  induction s with
  | nil => rfl
  | cons c s ih =>
    rw [List.mem_cons, not_or] at h
    have hrest := ih h.2
    match s with
    | [] | [_] => exact hrest
    | a :: b :: s =>
      have hc : c ≠ '%' := fun heq => h.1 heq.symm
      rw [hasEscape_cons, hrest]
      simp [hc]

theorem unquote_eq (s : Str) (hplus : '+' ∉ s) : unquote s = percentDecode s := by
  unfold unquote
  by_cases hpercent : '%' ∈ s
  · rw [if_pos hpercent, percentDecode_splitBy]
    apply List.flatMap_congr
    intro run hrun
    have hbytes : (0x2B : Byte) ∉ encode run := by
      intro hmem
      apply hplus
      rw [← List.flatten_splitBy (fun a b => isAscii a == isAscii b) s]
      exact List.mem_flatten.mpr ⟨run, hrun, mem_of_mem_encode run 0x2B (by decide) hmem⟩
    rw [unquoteToBytes_eq _ hbytes]
    rfl
  · rw [if_neg hpercent]
    exact ((percentDecode_eq_self_iff s).mpr ⟨hplus, hasEscape_of_not_mem s hpercent⟩).symm

theorem not_mem_replace (s : Str) : '+' ∉ replace s '+' [' '] := by
  intro h
  obtain ⟨c, _, hc⟩ := List.mem_flatMap.mp h
  by_cases hplus : c = '+'
  · rw [if_pos hplus] at hc
    exact absurd hc (by decide)
  · rw [if_neg hplus, List.mem_singleton] at hc
    exact hplus hc.symm

/- Plus signs first, then `unquote`: the order of `parse_qsl`. -/
theorem unquote_replace (s : Str) : unquote (replace s '+' [' ']) = percentDecode s := by
  rw [unquote_eq _ (not_mem_replace s), percentDecode, encode_replace_plus,
    percentDecodeBytes_plusToSpace]
  rfl

theorem parseQsl_eq (text : Str) : parseQsl text = decodeQuery text := by
  rw [parseQsl, decodeQuery, rawPairs, List.map_map]
  apply List.map_congr_left
  intro part _
  rw [Function.comp_apply, decodePair, rawPair, ← unquote_replace, ← unquote_replace]

/-! ### `urlencode` -/

/- What a byte is written as. -/
def formByte (b : Byte) : Str := if b = 0x20 then ['+'] else quoter [] b

theorem quoter_space (b : Byte) :
    replace (quoter [0x20] b) ' ' ['+'] = formByte b := by
  have hall : ∀ n < 256, replace (quoter [0x20] (UInt8.ofNat n)) ' ' ['+'] =
      formByte (UInt8.ofNat n) := by
    decide +kernel
  have h := hall b.toNat b.toNat_lt
  rwa [UInt8.ofNat_toNat] at h

theorem quotePlus_eq (s : Str) : quotePlus s = (encode s).flatMap formByte := by
  unfold quotePlus
  by_cases hspace : ' ' ∈ s
  · rw [if_pos hspace, quote, replace, List.flatMap_assoc]
    apply List.flatMap_congr
    intro b _
    exact quoter_space b
  · rw [if_neg hspace, quote]
    apply List.flatMap_congr
    intro b hb
    have hne : b ≠ 0x20 := by
      intro heq
      subst heq
      exact hspace (mem_of_mem_encode s 0x20 (by decide) hb)
    exact (if_neg hne).symm

/- The bytes of a written byte, and that they are read as that byte. -/
def ReadsBack (b : Byte) : List Byte → Prop
  | [c] => c = b ∧ b ≠ 0x2B ∧ b ≠ 0x25 ∨ c = 0x2B ∧ b = 0x20
  | [percent, high, low] => percent = 0x25 ∧ hexToByte [high, low] = some b
  | _ => False

instance (b : Byte) (bytes : List Byte) : Decidable (ReadsBack b bytes) := by
  unfold ReadsBack
  split <;> infer_instance

theorem formByte_spec (b : Byte) :
    ReadsBack b (encode (formByte b)) ∧ '&' ∉ formByte b ∧ '=' ∉ formByte b := by
  have hall : ∀ n < 256, ReadsBack (UInt8.ofNat n) (encode (formByte (UInt8.ofNat n))) ∧
      '&' ∉ formByte (UInt8.ofNat n) ∧ '=' ∉ formByte (UInt8.ofNat n) := by
    decide +kernel
  have h := hall b.toNat b.toNat_lt
  rwa [UInt8.ofNat_toNat] at h

theorem percentDecodeBytes_formByte (b : Byte) (rest : List Byte) :
    percentDecodeBytes (encode (formByte b) ++ rest) = b :: percentDecodeBytes rest := by
  have hreads := (formByte_spec b).1
  match encode (formByte b), hreads with
  | [c], hreads =>
    rcases hreads with ⟨hc, hplus, hpercent⟩ | ⟨hc, hb⟩
    · subst hc
      exact percentDecodeBytes_plain c rest hplus hpercent
    · subst hc
      subst hb
      rfl
  | [percent, high, low], hreads =>
    obtain ⟨hpercent, hbyte⟩ := hreads
    subst hpercent
    cases hhigh : hexDigit high with
    | none => simp [hexToByte, hhigh] at hbyte
    | some h =>
      cases hlow : hexDigit low with
      | none => simp [hexToByte, hhigh, hlow] at hbyte
      | some l =>
        have hb : UInt8.ofNat (h * 16 + l) = b := by simpa [hexToByte, hhigh, hlow] using hbyte
        rw [List.cons_append, List.cons_append, List.cons_append, List.nil_append,
          percentDecodeBytes, hhigh, hlow]
        dsimp only
        rw [hb]

theorem percentDecodeBytes_formBytes (bytes : List Byte) :
    percentDecodeBytes (encode (bytes.flatMap formByte)) = bytes := by
  induction bytes with
  | nil => rfl
  | cons b bytes ih =>
    have hencode : encode ((b :: bytes).flatMap formByte) =
        encode (formByte b) ++ encode (bytes.flatMap formByte) := List.flatMap_append
    rw [hencode, percentDecodeBytes_formByte, ih]

theorem percentDecode_quotePlus (s : Str) : percentDecode (quotePlus s) = s := by
  rw [percentDecode, quotePlus_eq, percentDecodeBytes_formBytes, fromUtf8Lossy_encode]

theorem quotePlus_separators (s : Str) : '&' ∉ quotePlus s ∧ '=' ∉ quotePlus s := by
  rw [quotePlus_eq]
  constructor
  · intro h
    obtain ⟨b, _, hb⟩ := List.mem_flatMap.mp h
    exact (formByte_spec b).2.1 hb
  · intro h
    obtain ⟨b, _, hb⟩ := List.mem_flatMap.mp h
    exact (formByte_spec b).2.2 hb

theorem decodeQuery_urlencode (pairs : List (Str × Str)) :
    decodeQuery (urlencode pairs) = pairs := by
  have hwritten : urlencode pairs =
      queryText (pairs.map fun pair => (quotePlus pair.1, quotePlus pair.2)) := by
    rw [urlencode, queryText, List.map_map]
    rfl
  rw [hwritten, decodeQuery, rawPairs_queryText, List.map_map]
  · refine (List.map_congr_left fun pair _ => ?_).trans (List.map_id' pairs)
    rw [Function.comp_apply, decodePair, percentDecode_quotePlus, percentDecode_quotePlus]
  · intro raw hraw
    obtain ⟨pair, _, rfl⟩ := List.mem_map.mp hraw
    exact ⟨(quotePlus_separators pair.1).1, (quotePlus_separators pair.2).1,
      (quotePlus_separators pair.1).2⟩

/-! ### The loop of `percent_decode` -/

/- The `while` on an index. `none` stands for a loop that has not ended yet. -/
def percentDecodeLoop (bytes : List Byte) : Nat → Nat → List Byte → Option (List Byte)
  | 0, _, _ => none
  | fuel + 1, i, out =>
    if i < bytes.length then
      let byte := bytes.getD i 0
      if byte = 0x2B then percentDecodeLoop bytes fuel (i + 1) (out ++ [0x20])
      else if byte = 0x25 ∧ i + 2 < bytes.length then
        match hexDigit (bytes.getD (i + 1) 0), hexDigit (bytes.getD (i + 2) 0) with
        | some hi, some lo =>
          percentDecodeLoop bytes fuel (i + 3) (out ++ [UInt8.ofNat (hi * 16 + lo)])
        | _, _ => percentDecodeLoop bytes fuel (i + 1) (out ++ [0x25])
      else percentDecodeLoop bytes fuel (i + 1) (out ++ [byte])
    else some out

theorem drop_eq_getD (bytes : List Byte) (i : Nat) (h : i < bytes.length) :
    bytes.drop i = bytes.getD i 0 :: bytes.drop (i + 1) := by
  rw [List.drop_eq_getElem_cons h, List.getD_eq_getElem?_getD, List.getElem?_eq_getElem h]
  rfl

theorem percentDecodeLoop_eq (bytes : List Byte) (fuel i : Nat) (out : List Byte)
    (hfuel : bytes.length - i < fuel) :
    percentDecodeLoop bytes fuel i out = some (out ++ percentDecodeBytes (bytes.drop i)) := by
  induction fuel generalizing i out with
  | zero => omega
  | succ fuel ih =>
    unfold percentDecodeLoop
    by_cases hi : i < bytes.length
    · have hdrop := drop_eq_getD bytes i hi
      rw [if_pos hi, hdrop]
      dsimp only
      by_cases hplus : bytes.getD i 0 = 0x2B
      · rw [if_pos hplus, ih (i + 1) _ (by omega), hplus, List.append_assoc]
        rfl
      · rw [if_neg hplus]
        by_cases hpercent : bytes.getD i 0 = 0x25 ∧ i + 2 < bytes.length
        · have hone := drop_eq_getD bytes (i + 1) (by omega)
          have htwo := drop_eq_getD bytes (i + 2) (by omega)
          rw [if_pos hpercent, hpercent.1, hone, htwo, percentDecodeBytes]
          cases hhigh : hexDigit (bytes.getD (i + 1) 0) with
          | none =>
            dsimp only
            rw [ih (i + 1) _ (by omega), hone, htwo, List.append_assoc]
            rfl
          | some high =>
            cases hlow : hexDigit (bytes.getD (i + 2) 0) with
            | none =>
              dsimp only
              rw [ih (i + 1) _ (by omega), hone, htwo, List.append_assoc]
              rfl
            | some low =>
              dsimp only
              rw [ih (i + 3) _ (by omega), List.append_assoc]
              rfl
        · rw [if_neg hpercent, ih (i + 1) _ (by omega), List.append_assoc,
            List.singleton_append]
          congr 2
          by_cases hbyte : bytes.getD i 0 = 0x25
          · -- fewer than two bytes follow the percent sign
            have hshort : bytes.length ≤ i + 2 := by
              by_contra hlong
              exact hpercent ⟨hbyte, by omega⟩
            rw [hbyte, percentDecodeBytes_percent]
            intro b₁ b₂ more heq
            have hlength := congrArg List.length heq
            simp only [List.length_drop, List.length_cons] at hlength
            omega
          · exact (percentDecodeBytes_plain _ _ hplus hbyte).symm
    · rw [if_neg hi, List.drop_of_length_le (by omega)]
      exact congrArg some (List.append_nil out).symm

/-! ### Both directions -/

/-- Behind a path part, what `urlencode` wrote is read back, and every text is read as
`parse_qsl` reads it; the decoding loop ends, with the decoded bytes. -/
theorem query_decoding_matches_urllib (pathPart : Str) (hpath : '?' ∉ pathPart) :
    (∀ pairs, splitQuery (pathPart ++ '?' :: urlencode pairs) = (pathPart, pairs)) ∧
      (∀ text, splitQuery (pathPart ++ '?' :: text) = (pathPart, parseQsl text)) ∧
      ∀ input fuel, (encode input).length < fuel →
        (percentDecodeLoop (encode input) fuel 0 []).map fromUtf8Lossy =
          some (percentDecode input) := by
  have hsplit (text : Str) :
      splitQuery (pathPart ++ '?' :: text) = (pathPart, decodeQuery text) := by
    rw [splitQuery_eq, splitOnce_append pathPart text '?' hpath]
  refine ⟨fun pairs => ?_, fun text => ?_, fun input fuel hfuel => ?_⟩
  · rw [hsplit, decodeQuery_urlencode]
  · rw [hsplit, parseQsl_eq]
  · rw [percentDecodeLoop_eq (encode input) fuel 0 [] (by omega)]
    rfl

/- A key with a reserved character, a value with a space and an umlaut; and a text with a
truncated escape and an escape of no character. -/
theorem query_decoding_matches_urllib_users :
    splitQuery "/main/users.csv?a%26b=c+%C3%A9".toList =
        ("/main/users.csv".toList, [("a&b".toList, "c é".toList)]) ∧
      splitQuery "/main/users.csv?x=%E2%8&y".toList =
        ("/main/users.csv".toList, parseQsl "x=%E2%8&y".toList) := by
  obtain ⟨hback, hread, _⟩ := query_decoding_matches_urllib "/main/users.csv".toList (by decide)
  exact ⟨hback [("a&b".toList, "c é".toList)], hread "x=%E2%8&y".toList⟩

end FsspecDb.Urllib
