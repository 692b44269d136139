import TaifexResolver.Parser.Encode

/-!
# Decoding what was encoded

Every reader of the parser, run on the bytes of a well-formed record, yields the
record and consumes exactly those bytes.
-/

namespace TaifexResolver
namespace TaifexParser

open Decoder

/-! ## Decimal fields -/

theorem toNat_bcdByte {pair : Nat} (small : pair < 100) :
    (bcdByte pair).toNat = pair / 10 * 16 + pair % 10 := by
  rw [bcdByte, UInt8.toNat_ofNat']
  omega

theorem toNat_highNibble (byte : UInt8) :
    (highNibble byte).toNat = byte.toNat / 16 := by
  rw [highNibble, UInt8.toNat_shiftRight, Nat.shiftRight_eq_div_pow]
  rfl

theorem toNat_lowNibble (byte : UInt8) :
    (lowNibble byte).toNat = byte.toNat % 16 := by
  rw [lowNibble, UInt8.toNat_and]
  exact Nat.and_two_pow_sub_one_eq_mod byte.toNat 4

/-- `bcd_to_uint` undoes `_bcd`, for numbers that fit. -/
theorem toNat_bcdToUint_packBcd
    {nbytes value : Nat}
    (short : nbytes ≤ 9)
    (fits : value < 100 ^ nbytes) :
    (bcdToUint (packBcd nbytes value)).toNat = value := by
  induction nbytes generalizing value with
  | zero =>
      rw [show value = 0 by simpa using fits]
      rfl
  | succ nbytes inductionHypothesis =>
      have higher : value / 100 < 100 ^ nbytes := by
        rw [Nat.pow_succ] at fits
        exact Nat.div_lt_of_lt_mul (by rwa [Nat.mul_comm])
      have bounded : 100 ^ (nbytes + 1) ≤ 100 ^ 9 :=
        Nat.pow_le_pow_right (by decide) short
      have decoded := inductionHypothesis (by omega) higher
      have last := toNat_bcdByte (Nat.mod_lt value (by decide : 0 < 100))
      rw [packBcd, bcdToUint, List.foldl_append, ← bcdToUint]
      simp only [List.foldl_cons, List.foldl_nil, UInt64.toNat_add,
        UInt64.toNat_mul, UInt8.toNat_toUInt64, toNat_highNibble,
        toNat_lowNibble, decoded, last]
      simp only [UInt64.reduceToNat]
      omega

@[simp] theorem length_packBcd (nbytes value : Nat) :
    (packBcd nbytes value).length = nbytes := by
  induction nbytes generalizing value with
  | zero => rfl
  | succ nbytes inductionHypothesis =>
      rw [packBcd, List.length_append, inductionHypothesis]
      rfl

theorem decodes_bcd
    {len value : Nat}
    (short : len ≤ 9)
    (fits : value < 100 ^ len) :
    Decodes (bcd len) (packBcd len value) (UInt64.ofNat value) := by
  have decoded : bcdToUint (packBcd len value) = UInt64.ofNat value := by
    have small : value < 2 ^ 64 :=
      (toNat_bcdToUint_packBcd short fits).symm ▸ UInt64.toNat_lt _
    rw [← UInt64.toNat_inj, toNat_bcdToUint_packBcd short fits,
      UInt64.toNat_ofNat_of_lt' small]
  rw [← decoded]
  exact (Decodes.block (⟨(packBcd len value).toArray, by simp⟩ :
    Vector UInt8 len)).map fun bytes => bcdToUint bytes.toList

/-- A one-byte, two-byte or four-byte integer survives the detour over 64 bits. -/
@[simp] theorem toUInt8_ofNat_toNat (value : UInt8) :
    (UInt64.ofNat value.toNat).toUInt8 = value := by
  simp

@[simp] theorem toUInt16_ofNat_toNat (value : UInt16) :
    (UInt64.ofNat value.toNat).toUInt16 = value := by
  simp

@[simp] theorem toUInt32_ofNat_toNat (value : UInt32) :
    (UInt64.ofNat value.toNat).toUInt32 = value := by
  simp

/-! ## Times and product ids -/

@[simp] theorem hexDigit_highNibble_packDigits (tens units : Fin 10) :
    hexDigit (highNibble (packDigits (digitByte tens) (digitByte units))) =
      digitByte tens := by
  revert tens units
  decide

@[simp] theorem hexDigit_lowNibble_packDigits (tens units : Fin 10) :
    hexDigit (lowNibble (packDigits (digitByte tens) (digitByte units))) =
      digitByte units := by
  revert tens units
  decide

theorem decodes_bcdTime
    {time : TimeText}
    (wellFormed : time.WellFormed) :
    Decodes bcdTime time.encode time := by
  obtain ⟨digits, rfl⟩ := wellFormed
  have formatted : formatBcdTimeToChar
      ⟨(TimeText.ofDigits digits).encode.toArray, rfl⟩ =
        TimeText.ofDigits digits := by
    simp [formatBcdTimeToChar, TimeText.encode, TimeText.ofDigits]
  have raw := (Decodes.block (⟨(TimeText.ofDigits digits).encode.toArray, rfl⟩ :
    Vector UInt8 6)).map formatBcdTimeToChar
  rwa [formatted] at raw

theorem decodes_prodId
    {prodId : ProdIdText}
    (wellFormed : prodId.WellFormed) :
    Decodes TaifexParser.prodId prodId.encode prodId := by
  have restored : prodId.pop.push 0 = prodId := by
    rw [← wellFormed.2]
    exact Vector.push_pop_back prodId
  have raw := (Decodes.block prodId.pop).map fun bytes => bytes.push 0
  rwa [restored] at raw

/-- A serial number fits five BCD bytes. -/
theorem decodes_serial (serial : UInt32) :
    Decodes (bcd 5) (packBcd 5 serial.toNat) (UInt64.ofNat serial.toNat) := by
  have bound := serial.toNat_lt
  exact decodes_bcd (by decide) (by omega)

/-- A count of at most ninety-nine fits one BCD byte. -/
theorem decodes_count
    {count : UInt8}
    {size : Nat}
    (counted : count.toNat = size)
    (atMost : size ≤ 99) :
    Decodes (bcd 1) (packBcd 1 count.toNat) (UInt64.ofNat count.toNat) :=
  decodes_bcd (by decide) (by omega)

/-! ## Records -/

theorem decodes_matchData
    {match_ : MatchData}
    (wellFormed : match_.WellFormed) :
    Decodes matchData match_.encode match_ := by
  unfold matchData MatchData.encode
  refine .field (.byte _) (.field (decodes_bcd (by decide) wellFormed.price) ?_)
  refine .field (decodes_bcd (by decide) wellFormed.quantity) (.done ?_)
  simp only [UInt64.ofNat_toNat, toUInt16_ofNat_toNat]

theorem decodes_mdEntry
    {entry : MDEntry}
    (wellFormed : entry.WellFormed) :
    Decodes mdEntry entry.encode entry := by
  unfold mdEntry MDEntry.encode
  refine .field (.byte _) (.field (.byte _) (.field (.byte _) ?_))
  refine .field (decodes_bcd (by decide) wellFormed.price) ?_
  refine .field (decodes_bcd (by decide) wellFormed.quantity) ?_
  refine .field (decodes_bcd (by decide) wellFormed.priceLevel) (.done ?_)
  simp only [UInt64.ofNat_toNat, toUInt32_ofNat_toNat, toUInt8_ofNat_toNat]

theorem decodes_snapshotEntry
    {entry : SnapshotEntry}
    (wellFormed : entry.WellFormed) :
    Decodes snapshotEntry entry.encode entry := by
  unfold snapshotEntry SnapshotEntry.encode
  refine .field (.byte _) (.field (.byte _) ?_)
  refine .field (decodes_bcd (by decide) wellFormed.price) ?_
  refine .field (decodes_bcd (by decide) wellFormed.quantity) ?_
  refine .field (decodes_bcd (by decide) wellFormed.priceLevel) (.done ?_)
  simp only [UInt64.ofNat_toNat, toUInt32_ofNat_toNat, toUInt8_ofNat_toNat]

theorem decodes_i084Product
    {prod : I084Product}
    (wellFormed : prod.WellFormed) :
    Decodes i084Product prod.encode prod := by
  obtain ⟨prodIdFits, counted, atMost, entriesFit⟩ := wellFormed
  unfold i084Product I084Product.encode
  refine .field (decodes_prodId prodIdFits) (.field (decodes_serial _) ?_)
  refine .field (decodes_count counted atMost) ?_
  refine .field (.times ?_ fun entry member =>
    decodes_snapshotEntry (entriesFit entry member)) (.done ?_)
  · rw [toUInt8_ofNat_toNat]
    exact counted
  · simp only [toUInt32_ofNat_toNat, toUInt8_ofNat_toNat]

theorem decodes_header
    {received : Header}
    {bodyLength : Nat}
    (wellFormed : received.WellFormed bodyLength) :
    Decodes header received.encode received := by
  have bodyLen : received.bodyLen.toNat < 100 ^ 2 := by
    have atMost := wellFormed.atMost
    rw [wellFormed.bodyLen]
    omega
  unfold header Header.encode
  refine .field (.byte _) (.field (.byte _) ?_)
  refine .field (decodes_bcdTime wellFormed.infoTime) ?_
  refine .field (decodes_bcd (by decide) wellFormed.channelId) ?_
  refine .field (decodes_serial _) ?_
  refine .field (decodes_bcd (by decide) wellFormed.versionNo) ?_
  refine .field (decodes_bcd (by decide) bodyLen) (.done ?_)
  simp only [toUInt32_ofNat_toNat, toUInt16_ofNat_toNat, toUInt8_ofNat_toNat]

/-! ## Bodies -/

theorem decodes_i024Packet
    {pkt : I024Packet}
    (wellFormed : pkt.WellFormed) :
    Decodes (i024Packet pkt.header) pkt.body pkt := by
  unfold i024Packet I024Packet.body
  refine .field (decodes_prodId wellFormed.prodId) (.field (decodes_serial _) ?_)
  refine .field (.byte _) (.field (decodes_bcdTime wellFormed.matchTime) ?_)
  refine .field (.byte _) ?_
  refine .field (decodes_bcd (by decide) wellFormed.firstPrice) ?_
  refine .field (decodes_bcd (by decide) wellFormed.firstQuantity) ?_
  refine .field (.byte _) (.field (.times wellFormed.displayItem
    fun match_ member =>
      decodes_matchData (wellFormed.consecutiveMatches match_ member)) ?_)
  refine .field (decodes_bcd (by decide) wellFormed.totalQty) ?_
  refine .field (decodes_bcd (by decide) wellFormed.buyCnt) ?_
  refine .field (decodes_bcd (by decide) wellFormed.sellCnt) (.done ?_)
  simp only [UInt64.ofNat_toNat, toUInt32_ofNat_toNat]

theorem decodes_i025Packet
    {pkt : I025Packet}
    (wellFormed : pkt.WellFormed) :
    Decodes (i025Packet pkt.header) pkt.body pkt := by
  unfold i025Packet I025Packet.body
  refine .field (decodes_prodId wellFormed.prodId) (.field (decodes_serial _) ?_)
  refine .field (.byte _) ?_
  refine .field (decodes_bcd (by decide) wellFormed.dayHighPrice) ?_
  refine .field (.byte _) ?_
  refine .field (decodes_bcd (by decide) wellFormed.dayLowPrice) ?_
  refine .field (decodes_bcdTime wellFormed.showTime) (.done ?_)
  simp only [UInt64.ofNat_toNat, toUInt32_ofNat_toNat]

theorem decodes_i081Packet
    {pkt : I081Packet}
    (wellFormed : pkt.WellFormed) :
    Decodes (i081Packet pkt.header) pkt.body pkt := by
  obtain ⟨prodIdFits, counted, atMost, entriesFit⟩ := wellFormed
  unfold i081Packet I081Packet.body
  refine .field (decodes_prodId prodIdFits) (.field (decodes_serial _) ?_)
  refine .field (decodes_count counted atMost) ?_
  refine .field (.times ?_ fun entry member =>
    decodes_mdEntry (entriesFit entry member)) (.done ?_)
  · rw [toUInt8_ofNat_toNat]
    exact counted
  · simp only [toUInt32_ofNat_toNat, toUInt8_ofNat_toNat]

theorem decodes_i083Packet
    {pkt : I083Packet}
    (wellFormed : pkt.WellFormed) :
    Decodes (i083Packet pkt.header) pkt.body pkt := by
  obtain ⟨prodIdFits, _, counted, atMost, entriesFit⟩ := wellFormed
  unfold i083Packet I083Packet.body
  refine .field (decodes_prodId prodIdFits) (.field (decodes_serial _) ?_)
  refine .field (.byte _) (.field (decodes_count counted atMost) ?_)
  refine .field (.times ?_ fun entry member =>
    decodes_snapshotEntry (entriesFit entry member)) (.done ?_)
  · rw [toUInt8_ofNat_toNat]
    exact counted
  · simp only [toUInt32_ofNat_toNat, toUInt8_ofNat_toNat]

theorem decodes_i084Packet
    {pkt : I084Packet}
    (wellFormed : pkt.WellFormed) :
    Decodes (i084Packet pkt.header) pkt.body pkt := by
  unfold i084Packet I084Packet.body
  cases wellFormed with
  | refresh messageType noEntries products =>
      have notOrders : pkt.messageType ≠ 'O'.toUInt8 := by
        rcases messageType with kind | kind <;> rw [kind] <;> decide
      rw [if_neg notOrders]
      refine .field (.byte _) ?_
      rw [i084Body, if_pos messageType]
      refine .field (decodes_serial _) (.done ?_)
      simp only [toUInt32_ofNat_toNat, ← noEntries, ← products]
  | orders messageType lastSeq counted atMost productsFit =>
      have notRefresh : ¬(pkt.messageType = 'A'.toUInt8 ∨
          pkt.messageType = 'Z'.toUInt8) := by
        rw [messageType]
        decide
      rw [if_pos messageType]
      refine .field (.byte _) ?_
      rw [i084Body, if_neg notRefresh, if_pos messageType]
      refine .field (decodes_count counted atMost) ?_
      refine .field (.times ?_ fun prod member =>
        decodes_i084Product (productsFit prod member)) (.done ?_)
      · rw [toUInt8_ofNat_toNat]
        exact counted
      · simp only [toUInt8_ofNat_toNat, ← lastSeq]

end TaifexParser
end TaifexResolver
