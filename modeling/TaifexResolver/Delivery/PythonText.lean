import TaifexResolver.Delivery.Routing
import TaifexResolver.OrderBook.Builders
import TaifexResolver.Parser.Bounds
import TaifexResolver.Parser.Drive

/-!
# The text that the Python binding reads

The binding reads a fixed `char` array into a `std::string`, which ends at the first NUL.
Nothing in the type of such an array says that there is one; this module shows that the
parser and the manager always put one there, and that the ids read in this way name the
products they were read from.  The strings are those of C++: to become a `str` of Python
their bytes must be valid UTF-8 as well, and that is not part of this module.
-/

namespace TaifexResolver

/-! ## Fixed arrays -/

/-- `fixed_char_getter`: the bytes before the first NUL.  Without a NUL `std::string`
would read beyond the array. -/
def fixedCharGetter {size : Nat} (field : Vector UInt8 size) : Option (List UInt8) :=
  if 0 ∈ field.toList then some (field.toList.takeWhile (· ≠ 0)) else none

/-- `fixed_char_setter`: at most all bytes but one are copied, and the rest is zeroed. -/
def fixedCharSetter (size : Nat) (value : List UInt8) : Vector UInt8 (size + 1) :=
  let copy := min value.length size
  Vector.ofFn fun idx => if idx < copy then value.getD idx 0 else 0

/-- The getter stays within the field. -/
def Readable {size : Nat} (field : Vector UInt8 size) : Prop :=
  (fixedCharGetter field).isSome = true

theorem readable_iff {size : Nat} {field : Vector UInt8 size} :
    Readable field ↔ 0 ∈ field.toList := by
  simp [Readable, fixedCharGetter]

theorem readable_of_getElem
    {size : Nat}
    {field : Vector UInt8 size}
    {idx : Nat}
    (inside : idx < size)
    (nul : field[idx] = 0) :
    Readable field :=
  readable_iff.mpr (Vector.mem_toList_iff.mpr (nul ▸ field.getElem_mem inside))

theorem readable_fixedCharSetter (size : Nat) (value : List UInt8) :
    Readable (fixedCharSetter size value) :=
  readable_of_getElem (Nat.lt_succ_self size)
    (by simp [fixedCharSetter])

theorem toList_fixedCharSetter
    {size : Nat}
    {value : List UInt8}
    (fits : value.length ≤ size) :
    (fixedCharSetter size value).toList =
      value ++ List.replicate (size + 1 - value.length) 0 := by
  apply List.ext_getElem (by simp; omega)
  intro idx inside _
  rw [List.getElem_append]
  by_cases copied : idx < value.length
  · simp [fixedCharSetter, copied, fits]
  · simp [fixedCharSetter, copied, fits]

/-- What the setter wrote the getter reads back, if it is short enough and holds no
NUL. -/
theorem fixedCharGetter_fixedCharSetter
    {size : Nat}
    {value : List UInt8}
    (fits : value.length ≤ size)
    (plain : 0 ∉ value) :
    fixedCharGetter (fixedCharSetter size value) = some value := by
  have nul : 0 ∈ (fixedCharSetter size value).toList :=
    readable_iff.mp (readable_fixedCharSetter size value)
  have kept : ∀ byte ∈ value, decide (byte ≠ 0) = true := fun byte member =>
    decide_eq_true fun zero => plain (zero ▸ member)
  have stops : (List.replicate (size + 1 - value.length) (0 : UInt8)).takeWhile
      (· ≠ 0) = [] := by
    rw [List.takeWhile_replicate]
    rfl
  rw [fixedCharGetter, if_pos nul, toList_fixedCharSetter fits,
    List.takeWhile_append_of_pos kept, stops, List.append_nil]

/-- An id that was read from a field names the product of the field. -/
theorem trimProdId_fixedCharGetter
    {prodId : ProdIdText}
    {text : List UInt8}
    (read : fixedCharGetter prodId = some text) :
    trimProdId text = prodId.key := by
  obtain ⟨_, same⟩ := Option.ite_none_right_eq_some.mp read
  rw [ProdIdText.key, trimProdId, trimProdId, ← Option.some.inj same, List.take_takeWhile,
    List.takeWhile_takeWhile]
  simp

/-- The id of a product names the product. -/
theorem trimProdId_trimProdId (prodId : List UInt8) :
    trimProdId (trimProdId prodId) = trimProdId prodId := by
  have prefixed : trimProdId prodId <+: (prodId.take 20).takeWhile (· ≠ 0) :=
    List.rdropWhile_prefix _ _
  have short : (trimProdId prodId).length ≤ 20 :=
    (prefixed.trans (List.takeWhile_prefix _)).length_le.trans (List.length_take_le 20 prodId)
  have plain : (trimProdId prodId).takeWhile (· ≠ 0) = trimProdId prodId :=
    List.takeWhile_eq_self_iff.mpr fun byte member => by
      simpa using List.mem_takeWhile_imp (prefixed.subset member)
  calc
    trimProdId (trimProdId prodId)
      = (((trimProdId prodId).take 20).takeWhile (· ≠ 0)).rdropWhile
          (· = ' '.toUInt8) := rfl
    _ = (trimProdId prodId).rdropWhile (· = ' '.toUInt8) := by
        rw [List.take_of_length_le short, plain]
    _ = trimProdId prodId := List.rdropWhile_idempotent _ _

/-! ## Messages -/

/-- A property of fixed arrays, whatever their size. -/
abbrev TextProperty := ∀ size, Vector UInt8 (size + 1) → Prop

/-- Every fixed array of a header has a property. -/
def Header.Texts (property : TextProperty) (header : Header) : Prop :=
  property 15 header.infoTime

/-- Every fixed array of a packet has a property. -/
def Packet.Texts (property : TextProperty) : Packet → Prop
  | .i024 pkt =>
      pkt.header.Texts property ∧ property 20 pkt.prodId ∧ property 15 pkt.matchTime
  | .i025 pkt =>
      pkt.header.Texts property ∧ property 20 pkt.prodId ∧ property 15 pkt.showTime
  | .i081 pkt => pkt.header.Texts property ∧ property 20 pkt.prodId
  | .i083 pkt => pkt.header.Texts property ∧ property 20 pkt.prodId
  | .i084 pkt =>
      pkt.header.Texts property ∧ ∀ product ∈ pkt.products, property 20 product.prodId

/-- Every fixed array that a call passes has a property. -/
def Call.Texts (property : TextProperty) : Call → Prop
  | .onHeader header => header.Texts property
  | .feed pkt | .callback pkt => pkt.Texts property

/-- The property that the getter stays within an array. -/
abbrev legible : TextProperty := fun _ => Readable

/-- The property that the setter wrote an array; a fresh one is what the empty string
leaves. -/
abbrev writtenByPython : TextProperty := fun size field =>
  ∃ value, fixedCharSetter size value = field

theorem Call.Texts.legible
    {call : Call}
    (written : call.Texts writtenByPython) :
    call.Texts legible := by
  have readable : ∀ {size : Nat} {field : Vector UInt8 (size + 1)},
      writtenByPython size field → Readable field := by
    rintro size field ⟨value, rfl⟩
    exact readable_fixedCharSetter size value
  cases call with
  | onHeader received => exact readable written
  | feed pkt | callback pkt =>
      cases pkt with
      | i024 pkt | i025 pkt =>
          exact ⟨readable written.1, readable written.2.1, readable written.2.2⟩
      | i081 pkt | i083 pkt => exact ⟨readable written.1, readable written.2⟩
      | i084 pkt =>
          exact ⟨readable written.1, fun product member =>
            readable (written.2 product member)⟩

namespace TaifexParser

open Decoder

theorem prodId_yields : Yields prodId Readable := fun _ _ =>
  readable_of_getElem (show 20 < 21 by decide) Vector.getElem_push_eq

theorem bcdTime_yields : Yields bcdTime Readable := fun _ _ =>
  readable_of_getElem (show 15 < 16 by decide) rfl

theorem header_yields : Yields header fun received => received.Texts legible :=
  .skip fun _ => .skip fun _ => bcdTime_yields.bind fun _ readable =>
    .skip fun _ => .skip fun _ => .skip fun _ => .skip fun _ => .pure readable

variable {received : Header} (readable : received.Texts legible)
include readable

theorem i024Packet_yields :
    Yields (i024Packet received) fun pkt => (Packet.i024 pkt).Texts legible :=
  prodId_yields.bind fun _ id => .skip fun _ => .skip fun _ =>
    bcdTime_yields.bind fun _ time =>
      .skip fun _ => .skip fun _ => .skip fun _ => .skip fun _ => .skip fun _ =>
        .skip fun _ => .skip fun _ => .skip fun _ => .pure ⟨readable, id, time⟩

theorem i025Packet_yields :
    Yields (i025Packet received) fun pkt => (Packet.i025 pkt).Texts legible :=
  prodId_yields.bind fun _ id =>
    .skip fun _ => .skip fun _ => .skip fun _ => .skip fun _ => .skip fun _ =>
      bcdTime_yields.bind fun _ time => .pure ⟨readable, id, time⟩

theorem i081Packet_yields :
    Yields (i081Packet received) fun pkt => (Packet.i081 pkt).Texts legible :=
  prodId_yields.bind fun _ id => .skip fun _ => .skip fun _ => .skip fun _ =>
    .pure ⟨readable, id⟩

theorem i083Packet_yields :
    Yields (i083Packet received) fun pkt => (Packet.i083 pkt).Texts legible :=
  prodId_yields.bind fun _ id => .skip fun _ => .skip fun _ => .skip fun _ =>
    .skip fun _ => .pure ⟨readable, id⟩

omit readable in
theorem i084Product_yields : Yields i084Product fun product => Readable product.prodId :=
  prodId_yields.bind fun _ id => .skip fun _ => .skip fun _ => .skip fun _ => .pure id

theorem i084Packet_yields :
    Yields (i084Packet received) fun pkt => (Packet.i084 pkt).Texts legible := by
  have without : ∀ product : I084Product, product ∈ [] → Readable product.prodId :=
    fun _ member => absurd member List.not_mem_nil
  refine .skip fun messageType => ?_
  unfold i084Body
  split
  · exact .skip fun _ => .pure ⟨readable, without⟩
  · split
    · exact .skip fun _ => (i084Product_yields.times _).bind fun _ ids =>
        .pure ⟨readable, ids⟩
    · exact .pure ⟨readable, without⟩

omit readable in
theorem deliver_legible
    (parser : TaifexParser)
    {pkt : Packet}
    (readable : pkt.Texts legible) :
    ∀ call ∈ parser.deliver pkt, call.Texts legible := by
  intro call member
  rcases List.mem_append.mp member with fed | called
  · split at fed
    · rw [List.mem_singleton.mp fed]
      exact readable
    · cases fed
  · split at called
    · rw [List.mem_singleton.mp called]
      exact readable
    · cases called

omit readable in
theorem handle_legible
    {α : Type}
    (parser : TaifexParser)
    {decoder : Decoder α}
    {wrap : α → Packet}
    (yields : Yields decoder fun value => (wrap value).Texts legible)
    (data : Memory) :
    ∀ call ∈ (parser.handle data decoder wrap).calls, call.Texts legible :=
  parser.deliver_legible (yields data 19)

theorem dispatch_legible
    (parser : TaifexParser)
    (data : Memory)
    (length : Nat) :
    ∀ call ∈ (parser.dispatch data length received).calls, call.Texts legible := by
  unfold dispatch
  split_ifs
  · exact parser.handle_legible (i024Packet_yields readable) data
  · rw [handleI025]
    split
    · exact fun _ member => absurd member List.not_mem_nil
    · exact parser.handle_legible (i025Packet_yields readable) data
  · exact parser.handle_legible (i081Packet_yields readable) data
  · exact parser.handle_legible (i083Packet_yields readable) data
  · exact parser.handle_legible (i084Packet_yields readable) data
  · exact fun _ member => absurd member List.not_mem_nil

omit readable in
/-- Whatever a datagram holds, the getters stay within the packets that come of it. -/
theorem processDatagram_legible
    (parser : TaifexParser)
    (data : Memory)
    (len : Nat) :
    ∀ call ∈ parser.processDatagram data len, call.Texts legible := by
  intro call member
  obtain ⟨segment, _, made⟩ := List.mem_flatMap.mp member
  by_cases accepted : Accepted (data.advance segment.start) segment.length
  · rw [parser.processRawData_accepted accepted] at made
    have received := header_yields (data.advance segment.start) 1
    rcases List.mem_append.mp made with announced | dispatched
    · rw [notify] at announced
      split at announced
      · rw [List.mem_singleton.mp announced]
        exact received
      · cases announced
    · exact dispatch_legible received parser _ _ call dispatched
  · rw [(parser.processRawData_refused accepted).2.1] at made
    cases made

end TaifexParser

/-! ## Books -/

namespace OrderBookManager

/-- The book of every product has a property. -/
def Books (property : OrderBook → Prop) (manager : OrderBookManager) : Prop :=
  ∀ key st, manager.productAt key = some st → property st.book

/-- Step lemma: new products have the property, and the message of the step keeps it. -/
theorem books_step
    {property : OrderBook → Prop}
    {manager : OrderBookManager}
    {step : Step}
    (newborn : ∀ prodId, property (ProductAction.newborn prodId).book)
    (kept : ∀ prodId message (st : ProductState), step.message = some (prodId, message) →
      property st.book → property (message.body prodId st).1.book)
    (held : manager.Books property) :
    (manager.step step).1.Books property := by
  intro key st found
  rw [productAt_step] at found
  cases action : step.actionOn key manager with
  | keep =>
      rw [action] at found
      exact held key st found
  | clear =>
      rw [action] at found
      cases found
  | suspect =>
      rw [action, ProductAction.apply_suspect] at found
      obtain ⟨before, present, rfl⟩ := Option.map_eq_some_iff.mp found
      exact held key before present
  | feed prodId message =>
      rw [action] at found
      cases found
      apply kept _ _ _ (Step.key_of_actionOn_feed action).1
      cases present : manager.productAt key with
      | none => exact newborn prodId
      | some before => exact held key before present

section Runs

variable
  {property : OrderBook → Prop}
  {operations : List Operation}
  (newborn : ∀ prodId, property (ProductAction.newborn prodId).book)
  (kept : ∀ step, .feed step ∈ operations → ∀ prodId message (st : ProductState),
    step.message = some (prodId, message) → property st.book →
      property (message.body prodId st).1.book)
include newborn kept

/-- Run lemma. -/
theorem books_final : (operate.final {} operations).Books property := by
  refine Machine.invariant_run (Books property)
    (fun manager operation member held => ?_)
    (fun key st found => ?_)
    (fun operation member => member)
  · cases operation with
    | feed step => exact books_step newborn (kept step member) held
    | registerCallback prodId callback | registerCallbackAll callback
    | unregisterCallbacks prodId | unregisterAllCallbacks => exact held
  · rw [blank_new.productAt] at found
    cases found

/-- Every copy that a run delivers is a copy of a book with the property. -/
theorem books_output :
    ∀ delivery ∈ operate.output {} operations,
      ∃ book, property book ∧ delivery.book = book.stamp delivery.book.isStale := by
  intro delivery delivered
  obtain ⟨before, operation, after, rfl, made⟩ := Machine.mem_output_iff.mp delivered
  cases operation with
  | feed step =>
      have held : (operate.final {} before).Books property :=
        books_final newborn fun earlier member =>
          kept earlier (List.mem_append_left _ member)
      have heldAfter : ((operate.final {} before).step step).1.Books property :=
        books_step newborn (kept step (by simp)) held
      obtain ⟨⟨st, live, copy⟩, _⟩ :=
        delivery_of_step (keyed_operations before) made
      refine ⟨st.book, ?_, copy⟩
      exact live.elim (held _ st) (heldAfter _ st)
  | registerCallback prodId callback | registerCallbackAll callback
  | unregisterCallbacks prodId | unregisterAllCallbacks => cases made

end Runs

end OrderBookManager

/-! ## Legible books -/

/-- The getters stay within the fixed arrays of a book. -/
def OrderBook.Legible (book : OrderBook) : Prop :=
  Readable book.prodId ∧ Readable book.infoTime

theorem readable_copyProdId (prodId : ProdIdText) : Readable (copyProdId prodId) :=
  readable_of_getElem (show 20 < 21 by decide) (Vector.getElem_set_self _)

/-- The id that a message leaves in its book can be read. -/
theorem ProductMessage.readable_prodId_body
    {message : ProductMessage}
    (prodId : ProdIdText)
    {st : ProductState}
    (held : Readable st.book.prodId) :
    Readable (message.body prodId st).1.book.prodId := by
  cases message with
  | track seq => exact st.prodId_trackOnly seq ▸ held
  | increment seq entries infoTime => exact st.prodId_applyIncrement seq entries infoTime ▸ held
  | snapshot seq entries infoTime =>
      simp only [body, ProductState.offerSnapshot]
      split
      · exact held
      · exact readable_copyProdId prodId

/-- The information time that a message leaves can be read. -/
def ProductMessage.Legible (message : ProductMessage) : Prop :=
  ∀ infoTime, Readable infoTime → Readable (message.infoTimeAfter infoTime)

theorem ProductMessage.readable_infoTime_body
    {message : ProductMessage}
    (readable : message.Legible)
    (prodId : ProdIdText)
    {st : ProductState}
    (held : Readable st.book.infoTime) :
    Readable (message.body prodId st).1.book.infoTime := by
  by_cases accepted : message.Accepted st
  · obtain ⟨_, _, _, _, _, infoTime, _⟩ := message.body_accepted prodId accepted
    exact infoTime ▸ readable _ held
  · rw [message.body_refused prodId accepted]
    exact held

/-- The messages of a call are legible if its arrays are. -/
theorem Call.legible_message
    {call : Call}
    (readable : call.Texts legible)
    {step : Step}
    (asked : step ∈ call.steps)
    {prodId : ProdIdText}
    {message : ProductMessage}
    (carries : step.message = some (prodId, message)) :
    message.Legible := by
  intro infoTime held
  cases call with
  | onHeader received =>
      rw [List.mem_singleton.mp asked] at carries
      cases carries
  | callback pkt => cases asked
  | feed pkt =>
      cases pkt with
      | i024 pkt | i025 pkt =>
          rw [List.mem_singleton.mp asked] at carries
          cases carries
          exact held
      | i081 pkt =>
          rw [List.mem_singleton.mp asked] at carries
          cases carries
          exact readable.1
      | i083 pkt =>
          rw [List.mem_singleton.mp asked, Step.message] at carries
          split at carries
          · cases carries
            exact held
          · cases carries
            exact readable.1
      | i084 pkt =>
          simp only [Call.steps, Packet.steps, I084Packet.blocks] at asked
          split at asked
          · obtain ⟨product, _, rfl⟩ := List.mem_map.mp asked
            cases carries
            exact readable.1
          · cases asked

/-- A critical section that a call asks for, which a parser made for a datagram or
Python made with packets of its own; or a reset. -/
def Step.Received (step : Step) : Prop :=
  step = .reset ∨ ∃ call : Call, step ∈ call.steps ∧
    ((∃ (parser : TaifexParser) (data : Memory) (len : Nat),
      call ∈ parser.processDatagram data len) ∨ call.Texts writtenByPython)

theorem Step.Received.legible
    {step : Step}
    (received : step.Received)
    {prodId : ProdIdText}
    {message : ProductMessage}
    (carries : step.message = some (prodId, message)) :
    message.Legible := by
  rcases received with rfl | ⟨call, asked, ⟨parser, data, len, made⟩ | written⟩
  · cases carries
  · exact call.legible_message (parser.processDatagram_legible data len call made) asked
      carries
  · exact call.legible_message written.legible asked carries

/-- The getters read every fixed array within its bounds.  Whatever bytes the datagrams
hold, they do so on the packets for the raw callbacks; and whatever the manager is fed
from them and by Python itself, they do so on every book that is delivered and every book
that `get_book` returns. -/
theorem text_fields_readable
    {operations : List Operation}
    (received : ∀ step, Operation.feed step ∈ operations → step.Received) :
    (∀ (parser : TaifexParser) data len pkt,
      Call.callback pkt ∈ parser.processDatagram data len → pkt.Texts legible) ∧
    (∀ delivery ∈ OrderBookManager.operate.output {} operations, delivery.book.Legible) ∧
    ∀ asked book,
      (OrderBookManager.operate.final {} operations).getBook asked = some book →
        book.Legible := by
  have newborn : ∀ prodId, (ProductAction.newborn prodId).book.Legible := fun prodId =>
    ⟨readable_copyProdId prodId, readable_of_getElem (show 15 < 16 by decide) rfl⟩
  have kept : ∀ step, Operation.feed step ∈ operations →
      ∀ prodId message (st : ProductState), step.message = some (prodId, message) →
        st.book.Legible → (message.body prodId st).1.book.Legible :=
    fun step member prodId message st carries held =>
      ⟨message.readable_prodId_body prodId held.1,
        message.readable_infoTime_body ((received step member).legible carries) prodId
          held.2⟩
  refine ⟨fun parser data len pkt made => ?_, fun delivery delivered => ?_,
    fun asked book found => ?_⟩
  · exact parser.processDatagram_legible data len _ made
  · obtain ⟨book, readable, copy⟩ :=
      OrderBookManager.books_output newborn kept delivery delivered
    rw [copy]
    exact readable
  · obtain ⟨st, present, rfl⟩ := Option.map_eq_some_iff.mp found
    exact OrderBookManager.books_final newborn kept _ st present

/-- An increment as the exchange sends it, in a datagram of its own. -/
def wireIncrement : List UInt8 :=
  WireMessage.encode (.packet (.i081
    (Builders.makeI081 Builders.kProd 1 [Builders.makeEntry '0' '0' 100 10 1] 1)))

/-- An increment that Python makes and feeds itself. -/
def pythonIncrement : I081Packet :=
  { Builders.makeI081 [] 2 [Builders.makeEntry '0' '1' 101 5 1] 2 with
    prodId := fixedCharSetter 20 Builders.kProd }

/-- A callback for all products, a datagram, and a feed from Python. -/
def pythonSession : List Operation :=
  let parser : TaifexParser :=
    { bookMgr := true, onI024 := false, onI025 := false, onI081 := true
      onI083 := false, onI084 := false }
  let calls := parser.processDatagram (Memory.ofBytes wireIncrement) wireIncrement.length
  .registerCallbackAll 1 ::
    ((calls.flatMap Call.steps).map .feed ++ [.feed (.i081 pythonIncrement)])

theorem text_fields_readable_session :
    (OrderBookManager.operate.output {} pythonSession).length = 2 ∧
    ∀ delivery ∈ OrderBookManager.operate.output {} pythonSession,
      delivery.book.Legible := by
  refine ⟨by decide +kernel, (text_fields_readable fun step member => ?_).2.1⟩
  rcases List.mem_cons.mp member with registers | member
  · cases registers
  rcases List.mem_append.mp member with received | made
  · obtain ⟨asked, member, same⟩ := List.mem_map.mp received
    cases same
    obtain ⟨call, decoded, asked⟩ := List.mem_flatMap.mp member
    exact Or.inr ⟨call, asked, Or.inl ⟨_, _, _, decoded⟩⟩
  · cases List.mem_singleton.mp made
    exact Or.inr ⟨.feed (.i081 pythonIncrement), List.mem_singleton.mpr rfl,
      Or.inr ⟨⟨[], by decide +kernel⟩, ⟨Builders.kProd, rfl⟩⟩⟩

/-! ## Ids -/

/-- `product_ids` lists the products fed since the last reset, each once, under their
trimmed ids.  Each listed id, given to `get_book`, finds its own product.  So does the
string that the getter reads from the raw id of any book `get_book` returns, and every
product that `get_book` finds is listed.  The string that the getter reads from the raw id
of a delivered book names its product. -/
theorem product_ids_name_books (operations : List Operation) :
    let reached := OrderBookManager.operate.final {} operations
    reached.productIds.Nodup ∧
    (∀ id, id ∈ reached.productIds ↔
      ∃ wireId ∈ recentWireIds operations, wireId.key = id) ∧
    (∀ id ∈ reached.productIds, trimProdId id = id ∧
      ∃ book, reached.getBook id = some book ∧ book.prodId.key = id) ∧
    (∀ asked book, reached.getBook asked = some book →
      trimProdId asked ∈ reached.productIds ∧
      ∃ text, fixedCharGetter book.prodId = some text ∧
        reached.getBook text = some book) ∧
    ∀ delivery ∈ OrderBookManager.operate.output {} operations,
      ∃ text, fixedCharGetter delivery.book.prodId = some text ∧
        trimProdId text = delivery.book.prodId.key := by
  intro reached
  have keyed : reached.Keyed := OrderBookManager.keyed_operations operations
  have kept : ∀ step, Operation.feed step ∈ operations →
      ∀ prodId (message : ProductMessage) (st : ProductState),
        step.message = some (prodId, message) → Readable st.book.prodId →
          Readable (message.body prodId st).1.book.prodId :=
    fun _ _ prodId message _ _ held => message.readable_prodId_body prodId held
  have readable : reached.Books fun book => Readable book.prodId :=
    OrderBookManager.books_final readable_copyProdId kept
  have listed : ∀ id, id ∈ reached.productIds ↔
      (reached.productAt id).isSome = true := fun id =>
    AList.lookup_isSome.symm
  refine ⟨reached.products.nodupKeys, fun id => ?_, fun id member => ?_,
    fun asked book found => ?_, fun delivery delivered => ?_⟩
  · rw [listed]
    exact OrderBookManager.isSome_productAt_final operations id
  · obtain ⟨st, present⟩ := Option.isSome_iff_exists.mp ((listed id).mp member)
    have own := keyed id st present
    have trimmed : trimProdId id = id := by
      rw [← own]
      exact trimProdId_trimProdId _
    refine ⟨trimmed, st.book.stamp st.isStale, ?_, own⟩
    rw [OrderBookManager.getBook, trimmed]
    exact congrArg (Option.map _) present
  · obtain ⟨st, present, rfl⟩ := Option.map_eq_some_iff.mp found
    obtain ⟨text, read⟩ := Option.isSome_iff_exists.mp (readable _ st present)
    refine ⟨(listed _).mpr (by rw [OrderBookManager.productAt, present]; rfl), text, read, ?_⟩
    have sameKey : trimProdId text = trimProdId asked :=
      (trimProdId_fixedCharGetter read).trans (keyed _ st present)
    rw [OrderBookManager.getBook, sameKey]
    exact found
  · obtain ⟨book, legibleId, copy⟩ :=
      show ∃ book : OrderBook, Readable book.prodId ∧
          delivery.book = book.stamp delivery.book.isStale from
        OrderBookManager.books_output readable_copyProdId kept delivery delivered
    obtain ⟨text, read⟩ := Option.isSome_iff_exists.mp legibleId
    rw [copy]
    exact ⟨text, read, trimProdId_fixedCharGetter read⟩

end TaifexResolver
