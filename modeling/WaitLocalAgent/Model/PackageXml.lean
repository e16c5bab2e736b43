import WaitLocalAgent.Model.PackageText

/-! # The XML source of a package

The lines of `Other/Solution.xml`, `Other/Customizations.xml` and `Other/Relationships.xml`. -/

namespace WaitLocalAgent.PowerPlatform

inductive FieldType where
  | lookup (targetEntity : String)
  | string (maxLength : ℤ)
  | dateOnly
  deriving DecidableEq, Repr

def FieldType.isLookup : FieldType → Bool
  | .lookup _ => true
  | _ => false

structure Attribute where
  logicalName : String
  displayName : String
  type : FieldType
  required : Bool
  deriving DecidableEq, Repr

structure Entity where
  logicalName : String
  displayName : String
  attributes : List Attribute
  primaryNameColumn : String
  deriving DecidableEq, Repr

structure Relationship where
  name : String
  referencingEntity : String
  referencedEntity : String
  referencingAttribute : String
  description : String
  deriving DecidableEq, Repr

/-- `{"type": …, "schema_name": …}`. -/
structure RootComponent where
  type : String
  schemaName : String
  deriving DecidableEq, Repr

/-- `_xml_escape(value, entities)`, where `quotes` says whether the entities of the quotation marks
are among them. -/
def xmlEscapeChar (quotes : Bool) (c : Char) : List Char :=
  if c = '&' then "&amp;".toList
  else if c = '>' then "&gt;".toList
  else if c = '<' then "&lt;".toList
  else if quotes ∧ c = '"' then "&quot;".toList
  else if quotes ∧ c = '\'' then "&apos;".toList
  else [c]

def xmlAttribute (value : String) : String := .ofList (value.toList.flatMap (xmlEscapeChar true))

def xmlText (value : String) : String := .ofList (value.toList.flatMap (xmlEscapeChar false))

def joinLines (lines : List String) : String :=
  .ofList (lines.flatMap fun line => line.toList ++ ['\n'])

/-- An address of the publisher, of which the manifest has two. -/
def addressXml (number : ℕ) : List String := [
    "        <Address>",
    s!"          <AddressNumber>{number}</AddressNumber>",
    "          <AddressTypeCode>1</AddressTypeCode>",
    "          <City xsi:nil=\"true\"></City>",
    "          <County xsi:nil=\"true\"></County>",
    "          <Country xsi:nil=\"true\"></Country>",
    "          <Fax xsi:nil=\"true\"></Fax>",
    "          <FreightTermsCode xsi:nil=\"true\"></FreightTermsCode>",
    "          <ImportSequenceNumber xsi:nil=\"true\"></ImportSequenceNumber>",
    "          <Latitude xsi:nil=\"true\"></Latitude>",
    "          <Line1 xsi:nil=\"true\"></Line1>",
    "          <Line2 xsi:nil=\"true\"></Line2>",
    "          <Line3 xsi:nil=\"true\"></Line3>",
    "          <Longitude xsi:nil=\"true\"></Longitude>",
    "          <Name xsi:nil=\"true\"></Name>",
    "          <PostalCode xsi:nil=\"true\"></PostalCode>",
    "          <PostOfficeBox xsi:nil=\"true\"></PostOfficeBox>",
    "          <PrimaryContactName xsi:nil=\"true\"></PrimaryContactName>",
    "          <ShippingMethodCode>1</ShippingMethodCode>",
    "          <StateOrProvince xsi:nil=\"true\"></StateOrProvince>",
    "          <Telephone1 xsi:nil=\"true\"></Telephone1>",
    "          <Telephone2 xsi:nil=\"true\"></Telephone2>",
    "          <Telephone3 xsi:nil=\"true\"></Telephone3>",
    "          <TimeZoneRuleVersionNumber xsi:nil=\"true\"></TimeZoneRuleVersionNumber>",
    "          <UPSZone xsi:nil=\"true\"></UPSZone>",
    "          <UTCOffset xsi:nil=\"true\"></UTCOffset>",
    "          <UTCConversionTimeZoneCode xsi:nil=\"true\"></UTCConversionTimeZoneCode>",
    "        </Address>"]

def rootComponentXml (component : RootComponent) : String :=
  s!"      <RootComponent type=\"{xmlAttribute component.type}\" " ++
    s!"schemaName=\"{xmlAttribute component.schemaName}\" behavior=\"0\" />"

def rootComponentsXml (components : List RootComponent) : List String :=
  if components.isEmpty then ["    <RootComponents />"]
  else "    <RootComponents>" :: components.map rootComponentXml ++ ["    </RootComponents>"]

def publisherXml (solution publisher publisherUniqueName publisherPrefix : String) :
    List String := [
    "<?xml version=\"1.0\" encoding=\"utf-8\"?>",
    "<ImportExportXml version=\"9.1.0.643\" SolutionPackageVersion=\"9.1\" " ++
      "languagecode=\"1033\" generatedBy=\"CrmLive\" " ++
      "xmlns:xsi=\"http://www.w3.org/2001/XMLSchema-instance\">",
    "  <SolutionManifest>",
    "    <!-- Unique Name of Cds Solution-->",
    s!"    <UniqueName>{xmlText solution}</UniqueName>",
    "    <LocalizedNames>",
    "      <!-- Localized Solution Name in language code -->",
    s!"      <LocalizedName description=\"{xmlAttribute solution}\" languagecode=\"1033\" />",
    "    </LocalizedNames>",
    "    <Descriptions />",
    "    <Version>1.0</Version>",
    "    <!-- Solution Package Type: Unmanaged(0)/Managed(1)/Both(2)-->",
    "    <Managed>0</Managed>",
    "    <Publisher>",
    "      <!-- Unique Publisher Name of Cds Solution -->",
    s!"      <UniqueName>{xmlText publisherUniqueName}</UniqueName>",
    "      <LocalizedNames>",
    "        <!-- Localized Cds Publisher Name in language code-->",
    s!"        <LocalizedName description=\"{xmlAttribute publisher}\" languagecode=\"1033\" />",
    "      </LocalizedNames>",
    "      <Descriptions>",
    "        <!-- Description of Cds Publisher in language code -->",
    s!"        <Description description=\"{xmlAttribute publisher}\" languagecode=\"1033\" />",
    "      </Descriptions>",
    "      <EMailAddress xsi:nil=\"true\"></EMailAddress>",
    "      <SupportingWebsiteUrl xsi:nil=\"true\"></SupportingWebsiteUrl>",
    "      <!-- Customization Prefix for the Cds Publisher-->",
    s!"      <CustomizationPrefix>{xmlText publisherPrefix}</CustomizationPrefix>",
    "      <!-- Derived Option Value Prefix for the Customization Prefix of Cds Publisher -->",
    "      <CustomizationOptionValuePrefix>89859</CustomizationOptionValuePrefix>",
    "      <Addresses>",
    "        <!-- Address of the Publisher-->"]

def solutionXml (solution publisher publisherUniqueName publisherPrefix : String)
    (components : List RootComponent) : String :=
  joinLines (publisherXml solution publisher publisherUniqueName publisherPrefix ++
    addressXml 1 ++ addressXml 2 ++ ["      </Addresses>", "    </Publisher>"] ++
    rootComponentsXml components ++
    ["    <MissingDependencies />", "  </SolutionManifest>", "</ImportExportXml>"])

def lookupXml (field : Attribute) : List String := [
    s!"            <attribute PhysicalName=\"{xmlAttribute field.logicalName}\">",
    "              <Type>lookup</Type>",
    s!"              <Name>{xmlText field.logicalName}</Name>" ++
      s!"<LogicalName>{xmlText field.logicalName}</LogicalName>",
    "              <RequiredLevel>none</RequiredLevel>",
    "              <DisplayMask>ValidForAdvancedFind|ValidForForm|ValidForGrid</DisplayMask>",
    "              <ImeMode>auto</ImeMode><ValidForCreateApi>1</ValidForCreateApi>" ++
      "<ValidForReadApi>1</ValidForReadApi>",
    "              <ValidForUpdateApi>1</ValidForUpdateApi><IsCustomField>1</IsCustomField>" ++
      "<IsAuditEnabled>0</IsAuditEnabled>",
    "              <IsSecured>0</IsSecured><IntroducedVersion>1.0</IntroducedVersion>" ++
      "<IsCustomizable>1</IsCustomizable>",
    "              <IsRenameable>1</IsRenameable><LookupStyle>single</LookupStyle><LookupTypes />",
    "              <displaynames><displayname " ++
      s!"description=\"{xmlAttribute field.displayName}\" languagecode=\"1033\" />" ++
      "</displaynames>",
    "            </attribute>"]

def scalarXml (field : Attribute) (typeLine formatLine displayMask : String) : List String := [
    s!"            <attribute PhysicalName=\"{xmlAttribute field.logicalName}\">",
    typeLine,
    s!"              <Name>{xmlText field.logicalName}</Name>" ++
      s!"<LogicalName>{xmlText field.logicalName}</LogicalName>",
    "              <RequiredLevel>none</RequiredLevel>",
    s!"              <DisplayMask>{displayMask}</DisplayMask>",
    "              <ImeMode>auto</ImeMode><ValidForCreateApi>1</ValidForCreateApi>" ++
      "<ValidForReadApi>1</ValidForReadApi>",
    "              <ValidForUpdateApi>1</ValidForUpdateApi><IsCustomField>1</IsCustomField>" ++
      "<IsAuditEnabled>0</IsAuditEnabled>",
    "              <IsSecured>0</IsSecured><IntroducedVersion>1.0</IntroducedVersion>" ++
      "<IsCustomizable>1</IsCustomizable>",
    formatLine,
    "              <displaynames><displayname " ++
      s!"description=\"{xmlAttribute field.displayName}\" languagecode=\"1033\" />" ++
      "</displaynames>",
    "            </attribute>"]

def xmlAttributeBlock (field : Attribute) (primary : Bool) : List String :=
  let displayMask :=
    if primary then "PrimaryName|ValidForAdvancedFind|ValidForForm|ValidForGrid"
    else "ValidForAdvancedFind|ValidForForm|ValidForGrid"
  match field.type with
  | .lookup _ => lookupXml field
  | .dateOnly =>
      scalarXml field "              <Type>datetime</Type>"
        "              <IsRenameable>1</IsRenameable><Format>date</Format><Behavior>1</Behavior>"
        displayMask
  | .string maxLength =>
      scalarXml field "              <Type>nvarchar</Type>"
        (s!"              <IsRenameable>1</IsRenameable><MaxLength>{maxLength}</MaxLength>" ++
          s!"<Length>{maxLength}</Length><Format>text</Format>")
        displayMask

def entityHeadXml (entity : Entity) : List String :=
  let collection := entity.displayName ++ "s"
  let description := entity.displayName ++ " record"
  [
    "    <Entity>",
    s!"      <Name LocalizedName=\"{xmlAttribute entity.displayName}\" " ++
      s!"OriginalName=\"{xmlAttribute entity.displayName}\">{xmlText entity.logicalName}" ++
      "</Name>",
    "      <EntityInfo>",
    s!"        <entity Name=\"{xmlAttribute entity.logicalName}\">",
    "          <LocalizedNames><LocalizedName " ++
      s!"description=\"{xmlAttribute entity.displayName}\" languagecode=\"1033\" />" ++
      "</LocalizedNames>",
    "          <LocalizedCollectionNames>" ++
      s!"<LocalizedCollectionName description=\"{xmlAttribute collection}\" " ++
      "languagecode=\"1033\" /></LocalizedCollectionNames>",
    s!"          <Descriptions><Description description=\"{xmlAttribute description}\" " ++
      "languagecode=\"1033\" /></Descriptions>",
    "          <attributes>"]

def xmlEntity (entity : Entity) : List String :=
  let fields := entity.attributes.insertionSort fun a b => a.logicalName ≤ b.logicalName
  let setName := entity.logicalName ++ "s"
  entityHeadXml entity ++
    (fields.flatMap fun a => xmlAttributeBlock a (a.logicalName = entity.primaryNameColumn)) ++ [
      "          </attributes>",
      s!"          <EntitySetName>{xmlText setName}</EntitySetName>",
      "          <IsCustomEntity>1</IsCustomEntity><OwnershipTypeMask>UserOwned" ++
        "</OwnershipTypeMask>",
      s!"          <PrimaryNameAttribute>{xmlText entity.primaryNameColumn}</PrimaryNameAttribute>",
      "          <IntroducedVersion>1.0</IntroducedVersion>",
      "        </entity>",
      "      </EntityInfo>",
      "    </Entity>"]

def descriptionXml (description : String) : String :=
  "      <RelationshipDescription><Descriptions>" ++
    s!"<Description description=\"{xmlAttribute description}\" languagecode=\"1033\" />" ++
    "</Descriptions></RelationshipDescription>"

def xmlRelationship (r : Relationship) : List String := [
    s!"    <EntityRelationship Name=\"{xmlAttribute r.name}\">",
    "      <EntityRelationshipType>OneToMany</EntityRelationshipType>",
    "      <IsCustomizable>1</IsCustomizable>",
    s!"      <ReferencingEntityName>{xmlText r.referencingEntity}</ReferencingEntityName>",
    s!"      <ReferencedEntityName>{xmlText r.referencedEntity}</ReferencedEntityName>",
    "      <CascadeAssign>NoCascade</CascadeAssign><CascadeDelete>RemoveLink</CascadeDelete>",
    "      <CascadeReparent>NoCascade</CascadeReparent><CascadeShare>NoCascade</CascadeShare>",
    "      <CascadeUnshare>NoCascade</CascadeUnshare>",
    "      <IsValidForAdvancedFind>1</IsValidForAdvancedFind>",
    s!"      <ReferencingAttributeName>{xmlText r.referencingAttribute}</ReferencingAttributeName>",
    "      <EntityRelationshipRoles>",
    "        <EntityRelationshipRole>",
    "          <NavPaneDisplayOption>UseCollectionName</NavPaneDisplayOption>",
    "          <NavPaneAreaDisplayOption>Details</NavPaneAreaDisplayOption>",
    "          <NavPaneAreaOrder>10000</NavPaneAreaOrder>",
    s!"          <NavigationPropertyName>{xmlText r.name}</NavigationPropertyName>",
    "          <RelationshipRoleType>1</RelationshipRoleType>",
    "        </EntityRelationshipRole>",
    "      </EntityRelationshipRoles>",
    descriptionXml r.description,
    "    </EntityRelationship>"]

def xmlRelationships (relationships : List Relationship) : List String :=
  if relationships.isEmpty then ["  <EntityRelationships />"]
  else
    "  <EntityRelationships>" ::
      (relationships.insertionSort fun r s => r.name ≤ s.name).flatMap xmlRelationship ++
        ["  </EntityRelationships>"]

def xmlEntities (entities : List Entity) : List String :=
  if entities.isEmpty then ["  <Entities />"]
  else
    "  <Entities>" ::
      (entities.insertionSort fun e f => e.logicalName ≤ f.logicalName).flatMap xmlEntity ++
        ["  </Entities>"]

def customizationsXml (entities : List Entity) (relationships : List Relationship) : String :=
  joinLines ([
    "\ufeff<?xml version=\"1.0\" encoding=\"utf-8\"?>",
    "<ImportExportXml xmlns:xsi=\"http://www.w3.org/2001/XMLSchema-instance\">"] ++
    xmlEntities entities ++
    ["  <Roles />", "  <Workflows />", "  <FieldSecurityProfiles />", "  <Templates />",
      "  <EntityMaps />"] ++
    xmlRelationships relationships ++
    ["  <OrganizationSettings />", "  <optionsets />", "  <CustomControls />",
      "  <SolutionPluginAssemblies />", "  <EntityDataProviders />", "  <Languages>",
      "    <Language>1033</Language>", "  </Languages>", "</ImportExportXml>"])

def relationshipsXml : String :=
  joinLines [
    "\ufeff<?xml version=\"1.0\" encoding=\"utf-8\"?>",
    "<EntityRelationships xmlns:xsi=\"http://www.w3.org/2001/XMLSchema-instance\" />"]

end WaitLocalAgent.PowerPlatform
