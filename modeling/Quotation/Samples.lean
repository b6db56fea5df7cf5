import Quotation.Catalogue

/-!
# Sample schemas

Four small quote forms that come with the program: banners, business cards, packaging and stickers.
-/

namespace Quotation.Samples

/-- A sub-option that is charged against the order quantity. -/
def finish (id label value : String) (price : Float) (description : String := "") : SubOption where
  id := id
  label := label
  value := value
  description := description
  price := price
  scope := some .perQuantity

def banners : ProductSchema where
  name := "banners"
  title := "Banners"
  description := "Area-based pricing with material and finishing options."
  parameters := [
    { id := "banner_width", name := "width", label := "Width", kind := .numericValue,
      required := true, min := some 12, max := some 120, step := some 6, unit := some "inches" },
    { id := "banner_height", name := "height", label := "Height", kind := .numericValue,
      required := true, min := some 12, max := some 60, step := some 6, unit := some "inches" },
    { id := "banner_area", name := "area", label := "Total Area", kind := .derivedCalc,
      formula := some "width * height / 144", dependencies := ["width", "height"],
      unit := some "sq ft", isMainUnits := true, pricing := { unitPrice := some 3.5 } },
    { id := "banner_material", name := "banner_material", label := "Material Type",
      kind := .fixedOption, required := true,
      options := [
        { label := "13oz Vinyl", value := "vinyl_13oz", pricing := { multiplier := some 1.0 } },
        { label := "18oz Vinyl (Heavy Duty)", value := "vinyl_18oz",
          pricing := { multiplier := some 1.4 } },
        { label := "Mesh (Wind Resistant)", value := "mesh",
          pricing := { multiplier := some 1.2 } }] },
    { id := "banner_hemming", name := "hemming", label := "Hemmed Edges", kind := .fixedOption,
      conditional := some ⟨"banner_material", ["vinyl_13oz", "vinyl_18oz"]⟩,
      options := [
        { label := "No Hem", value := "none" },
        { label := "Sewn Hem", value := "sewn", pricing := { basePrice := some 12 } }] },
    { id := "banner_grommets", name := "grommets", label := "Grommets", kind := .fixedOption,
      required := true,
      options := [
        { label := "Standard (every 2 feet)", value := "standard",
          pricing := { basePrice := some 8 } },
        { label := "Reinforced (every 18 inches)", value := "reinforced",
          pricing := { basePrice := some 15 } }] }]

def businessCards : ProductSchema where
  name := "business_cards"
  title := "Business Cards"
  description := "Simple quantity-based pricing with material options and finishes."
  parameters := [
    { id := "bc_material", name := "material", label := "Card Material", kind := .fixedOption,
      required := true,
      description := "Paper stock for the cards. Higher point values are thicker.",
      pricing := { basePrice := some 5 },
      options := [
        { label := "Standard (14pt)", value := "standard",
          description := "Lightweight, cost-effective option for everyday use",
          pricing := { basePrice := some 0, multiplier := some 1.0 },
          subOptions := [
            finish "matte_finish" "Matte Finish" "matte" 2 "Non-reflective finish",
            finish "gloss_finish" "Gloss Finish" "gloss" 3
              "Shiny finish that makes colors pop"] },
        { label := "Premium (16pt)", value := "premium",
          description := "Thicker stock with better feel and durability",
          pricing := { basePrice := some 15, multiplier := some 1.3 },
          subOptions := [
            finish "spot_uv" "Spot UV Coating" "spot_uv" 8,
            finish "embossing" "Embossed Text" "emboss" 12] },
        { label := "Luxury (18pt + UV)", value := "luxury",
          description := "Premium thick stock with UV coating included",
          pricing := { basePrice := some 35, multiplier := some 1.8 },
          subOptions := [
            finish "foil_stamping" "Foil Stamping" "foil" 20,
            finish "die_cut" "Custom Die Cut" "die_cut" 25] }] },
    { id := "bc_quantity", name := "quantity", label := "Quantity", kind := .numericValue,
      required := true, min := some 100, max := some 10000, step := some 50, unit := some "cards",
      pricing := { unitPrice := some 0.12, step := some ⟨1000, -0.02⟩ } }]

def packaging : ProductSchema where
  name := "packaging"
  title := "Custom Packaging"
  description := "Box pricing driven by a derived volume, material and print finish."
  parameters := [
    { id := "box_length", name := "length", label := "Length", kind := .numericValue,
      required := true, min := some 2, max := some 24, step := some 0.25, unit := some "inches" },
    { id := "box_width", name := "width", label := "Width", kind := .numericValue,
      required := true, min := some 2, max := some 18, step := some 0.25, unit := some "inches" },
    { id := "box_height", name := "height", label := "Height", kind := .numericValue,
      required := true, min := some 1, max := some 12, step := some 0.25, unit := some "inches" },
    { id := "box_volume", name := "volume", label := "Box Volume", kind := .derivedCalc,
      formula := some "length * width * height", dependencies := ["length", "width", "height"],
      unit := some "cubic inches",
      pricing := { basePrice := some 2.5, unitPrice := some 0.08 } },
    { id := "box_material", name := "material", label := "Material", kind := .fixedOption,
      required := true,
      options := [
        { label := "Standard Cardboard", value := "cardboard",
          pricing := { multiplier := some 1.0 } },
        { label := "Corrugated", value := "corrugated", pricing := { multiplier := some 1.4 } },
        { label := "Rigid Chipboard", value := "rigid", pricing := { multiplier := some 1.8 } }] },
    { id := "box_finish", name := "finish", label := "Finish Options", kind := .fixedOption,
      required := true,
      options := [
        { label := "Plain (No Print)", value := "plain", pricing := { multiplier := some 1.0 } },
        { label := "1-Color Print", value := "1color",
          pricing := { basePrice := some 35, multiplier := some 1.3 } },
        { label := "Full Color Print", value := "fullcolor",
          pricing := { basePrice := some 65, multiplier := some 1.8 } },
        { label := "Spot UV + Full Color", value := "uv_full",
          pricing := { basePrice := some 125, multiplier := some 2.4 } }] },
    { id := "box_quantity", name := "quantity", label := "Quantity", kind := .numericValue,
      required := true, min := some 50, max := some 10000, step := some 50, unit := some "boxes",
      pricing := { step := some ⟨500, -0.25⟩ } }]
  connections := [
    { id := "dieline_width", property := "width", parameter := "width",
      description := "Dieline width in inches" },
    { id := "dieline_height", property := "height", parameter := "height",
      description := "Dieline height in inches" }]

def stickers : ProductSchema where
  name := "stickers"
  title := "Stickers"
  description := "Die-cut vs standard stickers with size tiers."
  parameters := [
    { id := "sticker_type", name := "type", label := "Sticker Type", kind := .fixedOption,
      required := true,
      options := [
        { label := "Standard Shape (Rectangle/Circle)", value := "standard",
          pricing := { basePrice := some 0 } },
        { label := "Die-Cut (Custom Shape)", value := "diecut",
          pricing := { basePrice := some 45 } }] },
    { id := "sticker_size", name := "size", label := "Size Category", kind := .fixedOption,
      required := true,
      options := [
        { label := "Small (up to 2\")", value := "small", pricing := { unitPrice := some 0.25 } },
        { label := "Medium (2-4\")", value := "medium", pricing := { unitPrice := some 0.45 } },
        { label := "Large (4-6\")", value := "large", pricing := { unitPrice := some 0.85 } },
        { label := "Extra Large (6\"+)", value := "xlarge",
          pricing := { unitPrice := some 1.5 } }] },
    { id := "sticker_quantity", name := "quantity", label := "Quantity", kind := .numericValue,
      required := true, min := some 25, max := some 10000, step := some 25,
      unit := some "stickers", pricing := { step := some ⟨500, -0.05⟩ } }]

def all : List ProductSchema := [banners, businessCards, packaging, stickers]

/-- The samples as a catalogue. The folder is where a schema is said to be missing. -/
def catalogue (folder : String) : Catalogue where
  names := all.map (·.name.shown)
  load name :=
    match all.find? fun schema => schema.name.shown == name with
    | some schema => .ok schema
    | none => .error (.notFound (Path.join folder (name ++ schemaSuffix)))

end Quotation.Samples
