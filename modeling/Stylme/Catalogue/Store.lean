-- SUMMARY: The documents behind the public catalogue: taxonomy fields, products, offers, sellers and locations.
import Stylme.Backend.Store

/-!
# The catalogue's store

The collections that `product_service.py` reads. A document has the fields its
writers give it; a field that the service reads with a default, or tests for
presence, is optional.
-/

namespace Stylme

open Conc Backend

namespace Catalogue

/-! ## Values -/

/-- `bool(v)` of a stored value. -/
def truthy : Json → Bool
  | .null => false
  | .bool b => b
  | .num n => n ≠ 0
  | .str s => s ≠ ""
  | .arr items => !items.isEmpty
  | .obj fields => !fields.isEmpty

/-- The value is this string. -/
def isText (value : String) : Json → Bool
  | .str s => s = value
  | _ => false

/-- `{path: {"$in": values}}`: the stored value, or an element of a stored array, is one of them. -/
def storedIn (values : List String) : Option Json → Bool
  | some (.str s) => s ∈ values
  | some (.arr items) => items.any fun item => values.any (isText · item)
  | _ => false

/-! ## Taxonomy -/

/-- An element of `options`: a plain string, or a document. -/
inductive OptionDoc where
  | text (key : String)
  | doc (key label : Option String) (aliases : List String) (active : Option Json)

/-- A document of `metadata_fields`. -/
structure MetadataField where
  key : String
  label : Option String
  status : String
  filterable : Bool
  searchable : Bool
  geminiAllowed : Bool
  storage : Option String
  storagePath : Option String
  dataType : Option String
  /-- `validation["maxSelections"]` -/
  maxSelections : Option Int
  options : List OptionDoc

/-- `isinstance(option, dict) and option.get("active", True)` -/
def OptionDoc.enabled : OptionDoc → Bool
  | text _ => false
  | doc _ _ _ active => active.elim true truthy

/-- `str(option.get("key"))` -/
def OptionDoc.keyText : OptionDoc → String
  | text key => key
  | doc key _ _ _ => key.getD "None"

/-- The keys of the enabled options. -/
def MetadataField.allowedValues (field : MetadataField) : List String :=
  (field.options.filter (·.enabled)).map (·.keyText)

/-! ## Products and offers -/

structure Rating where
  average : ℚ
  count : ℤ

/-- An element of `media` -/
structure Media where
  url : String
  position : ℕ

/-- A document of `products`. -/
structure Product where
  id : ObjectId
  source : String
  sourceProductID : String
  brandID : ObjectId
  title : String
  description : String
  searchText : String
  status : String
  visibility : String
  categoryKey : Option String
  productTypeKey : Option String
  genderKeys : Option (List String)
  metadata : Document
  /-- The `families` of each swatch of `color_palette`. -/
  colorPalette : List (List String)
  rating : Rating
  catalogueEligible : Bool
  catalogueMinPricePaise : Option ℤ
  createdAt : Time
  media : List Media := []

structure InventoryRow where
  variantID : String
  locationID : ObjectId
  availableQty : ℤ
  active : Bool

structure AgeBounds where
  applicable : Bool
  minAge : Option ℚ
  maxAge : Option ℚ

structure FitBounds where
  applicable : Bool
  minHeightCm : Option ℚ
  maxHeightCm : Option ℚ
  minWeightKg : Option ℚ
  maxWeightKg : Option ℚ

/-- A document of `seller_offers`. -/
structure Offer where
  id : ObjectId
  offerCode : String
  productID : ObjectId
  sellerID : ObjectId
  status : String
  salePricePaise : ℤ
  inventory : List InventoryRow
  fitBounds : Option FitBounds
  ageBounds : Option AgeBounds
  availableSizeKeys : List String
  availableColorIDs : List ObjectId
  availableColorFamilyKeys : List String
  locationIDs : List ObjectId

/-- A row in stock: `{"active": True, "availableQty": {"$gt": 0}}`. -/
def InventoryRow.stocked (row : InventoryRow) : Bool := row.active ∧ 0 < row.availableQty

def Offer.stocked (o : Offer) : Bool := o.inventory.any (·.stocked)

/-! ## Sellers and places -/

structure Seller where
  id : ObjectId
  status : String

/-- A GeoJSON point. -/
structure Point where
  longitude : ℚ
  latitude : ℚ

/-- A document of `seller_locations`. -/
structure Location where
  id : ObjectId
  sellerID : ObjectId
  status : String
  geoPoint : Option Point
  geocodeResolved : Bool
  swoopstylEnabled : Bool
  handlingHours : Option ℚ
  currentCommittedLoad : Option ℤ
  dailyCapacity : Option ℤ
  radiusKmOverride : Option ℚ

/-- A document of `pincode_geos`. -/
structure PincodeGeo where
  countryCode : String
  pincode : String
  resolved : Bool
  geoPoint : Option Point

structure Brand where
  id : ObjectId
  status : String
  name : String
  normalizedName : String
  aliases : List String

structure Color where
  id : ObjectId
  status : String
  key : String
  normalizedName : String
  name : String
  aliases : List String
  familyKeys : List String

structure Store where
  fields : Collection MetadataField MetadataField.key MetadataField.key
  products : Collection Product Product.id Product.id
  offers : Collection Offer Offer.id Offer.offerCode
  sellers : Collection Seller Seller.id Seller.id
  locations : Collection Location Location.id Location.id
  pincodes : List PincodeGeo
  brands : Collection Brand Brand.id Brand.id
  colors : Collection Color Color.id Color.id

namespace Store

/-- `distinct("_id", {"status": "approved"})` of the sellers -/
def approvedSellerIDs (store : Store) : List ObjectId :=
  (store.sellers.docs.filter (·.status = "approved")).map (·.id)

/-- The offer can be bought: it is active and in stock, and its seller is approved. -/
def sells (store : Store) (o : Offer) : Bool :=
  o.status = "active" ∧ o.stocked ∧ o.sellerID ∈ store.approvedSellerIDs

end Store

/-! ## A small shop -/

namespace Sample

/-- A shawl that everybody can wear. -/
def shawl (id : ObjectId) (createdAt : Time) (rating : Rating) (price : Option ℤ) : Product where
  id := id
  source := "seller-portal"
  sourceProductID := toString id
  brandID := 1
  title := "shawl"
  description := "shawl"
  searchText := "shawl"
  status := "active"
  visibility := "public"
  categoryKey := some "accessories"
  productTypeKey := some "shawl"
  genderKeys := some []
  metadata := []
  colorPalette := []
  rating := rating
  catalogueEligible := price.isSome
  catalogueMinPricePaise := price
  createdAt := createdAt

/-- A filterable field of the product metadata with one option. -/
def metadataField (key dataType option : String) : MetadataField where
  key := key
  label := some key
  status := "active"
  filterable := true
  searchable := true
  geminiAllowed := true
  storage := some "product_metadata"
  storagePath := none
  dataType := some dataType
  maxSelections := none
  options := [.doc (some option) (some option) [] none]

/-- A field of the classification. -/
def coreField (key dataType option : String) : MetadataField :=
  { metadataField key dataType option with storage := some "product" }

/-- The offer of a shawl, with three pieces in stock. -/
def shawlOffer (productID : ObjectId) (price : ℤ) : Offer where
  id := productID
  offerCode := toString productID
  productID := productID
  sellerID := 1
  status := "active"
  salePricePaise := price
  inventory := [⟨"free", 1, 3, true⟩]
  fitBounds := none
  ageBounds := none
  availableSizeKeys := ["free"]
  availableColorIDs := []
  availableColorFamilyKeys := []
  locationIDs := [1]

/-- One shawl on offer. -/
def oneOffer : Collection Offer Offer.id Offer.offerCode := ⟨[shawlOffer 1 90000], by decide, by decide⟩

/-- A store with one approved seller. -/
def shop (products : Collection Product Product.id Product.id)
    (offers : Collection Offer Offer.id Offer.offerCode) : Store where
  fields := ∅
  products := products
  offers := offers
  sellers := ⟨[⟨1, "approved"⟩], by decide, by decide⟩
  locations := ∅
  pincodes := []
  brands := ∅
  colors := ∅

end Sample

end Catalogue

end Stylme
